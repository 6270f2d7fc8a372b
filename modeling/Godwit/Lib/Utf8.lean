import Godwit.Lib.Pieces

set_option autoImplicit false

/-! # UTF-8 that may be damaged

`String::from_utf8_lossy` of the standard library, byte by byte: a character that is begun and not completed
becomes one replacement character, and the byte that does not continue it is read again as the first of the
next. So bytes decode on their own wherever a character starts (`decodeFrom_append`), in particular around a
line feed (`splitOn_decodeLossy`), and what decodes without a replacement character does so next to
anything. -/

namespace Godwit

/-- `char::REPLACEMENT_CHARACTER`. -/
def replacementChar : Char := '\uFFFD'

/-- A character of which some bytes were read: its bits so far, how many bytes follow the next one, and the
    range of the next one. The range leaves no room for a character that fewer bytes can hold. -/
structure PartialChar where
  bits : Nat
  more : Nat
  low : Nat
  high : Nat
  continues : 0x80 ≤ low ∧ high ≤ 0xBF
  notAscii : 0x80 ≤ (bits * 64 + (low - 0x80)) * 64 ^ more

/-- The first byte of a character. -/
def decodeLead (b : UInt8) : List Char × Option PartialChar :=
  let n := b.toNat
  if n < 0x80 then ([Char.ofNat n], none)
  else if h : 0xC2 ≤ n ∧ n ≤ 0xDF then
    ([], some ⟨n - 0xC0, 0, 0x80, 0xBF, by omega, by omega⟩)
  else if n = 0xE0 then ([], some ⟨0, 1, 0xA0, 0xBF, by omega, by omega⟩)
  else if n = 0xED then ([], some ⟨0xD, 1, 0x80, 0x9F, by omega, by omega⟩)
  else if h : 0xE1 ≤ n ∧ n ≤ 0xEF then ([], some ⟨n - 0xE0, 1, 0x80, 0xBF, by omega, by omega⟩)
  else if n = 0xF0 then ([], some ⟨0, 2, 0x90, 0xBF, by omega, by omega⟩)
  else if n = 0xF4 then ([], some ⟨4, 2, 0x80, 0x8F, by omega, by omega⟩)
  else if h : 0xF1 ≤ n ∧ n ≤ 0xF3 then ([], some ⟨n - 0xF0, 2, 0x80, 0xBF, by omega, by omega⟩)
  else ([replacementChar], none)

/-- What a first byte can be: a character, nothing that begins one, or the lead of two to four bytes. -/
theorem decodeLead_cases (b : UInt8) :
    (b.toNat < 0x80 ∧ decodeLead b = ([Char.ofNat b.toNat], none))
      ∨ (0x80 ≤ b.toNat ∧ ¬ (0xC2 ≤ b.toNat ∧ b.toNat ≤ 0xF4) ∧ decodeLead b = ([replacementChar], none))
      ∨ ((0xC2 ≤ b.toNat ∧ b.toNat ≤ 0xF4) ∧ ∃ next : PartialChar, decodeLead b = ([], some next)
        ∧ next.bits = (if b.toNat ≤ 0xDF then b.toNat - 0xC0 else if b.toNat ≤ 0xEF then b.toNat - 0xE0
          else b.toNat - 0xF0)
        ∧ next.more = (if b.toNat ≤ 0xDF then 0 else if b.toNat ≤ 0xEF then 1 else 2)
        ∧ next.low = (if b.toNat = 0xE0 then 0xA0 else if b.toNat = 0xF0 then 0x90 else 0x80)
        ∧ next.high = (if b.toNat = 0xED then 0x9F else if b.toNat = 0xF4 then 0x8F else 0xBF)) := by
  unfold decodeLead
  dsimp only
  by_cases hascii : b.toNat < 0x80
  · rw [if_pos hascii]
    exact .inl ⟨hascii, rfl⟩
  · rw [if_neg hascii]
    refine .inr ?_
    by_cases hlead : 0xC2 ≤ b.toNat ∧ b.toNat ≤ 0xF4
    · refine .inr ⟨hlead, ?_⟩
      by_cases htwo : b.toNat ≤ 0xDF
      · rw [dif_pos ⟨hlead.1, htwo⟩]
        refine ⟨_, rfl, (if_pos htwo).symm, (if_pos htwo).symm, ?_, ?_⟩ <;>
          rw [if_neg (by omega), if_neg (by omega)]
      rw [dif_neg (fun h => htwo h.2), if_neg htwo, if_neg htwo]
      by_cases hthree : b.toNat ≤ 0xEF
      · rw [if_pos hthree, if_pos hthree]
        rcases (by omega : b.toNat = 0xE0 ∨ b.toNat = 0xED ∨ (b.toNat ≠ 0xE0 ∧ b.toNat ≠ 0xED)) with h | h | ⟨hlow, hhigh⟩
        · rw [if_pos h, if_pos h, h]
          exact ⟨_, rfl, rfl, rfl, rfl, rfl⟩
        · rw [if_neg (by omega), if_pos h, if_pos h, h]
          exact ⟨_, rfl, rfl, rfl, rfl, rfl⟩
        · rw [if_neg hlow, if_neg hhigh, dif_pos (by omega), if_neg hlow, if_neg hhigh, if_neg (by omega),
            if_neg (by omega)]
          exact ⟨_, rfl, rfl, rfl, rfl, rfl⟩
      · rw [if_neg hthree, if_neg hthree, if_neg (by omega), if_neg (by omega), dif_neg (by omega)]
        rcases (by omega : b.toNat = 0xF0 ∨ b.toNat = 0xF4 ∨ (b.toNat ≠ 0xF0 ∧ b.toNat ≠ 0xF4)) with h | h | ⟨hlow, hhigh⟩
        · rw [if_pos h, h]
          exact ⟨_, rfl, rfl, rfl, rfl, rfl⟩
        · rw [if_neg (by omega), if_pos h, h]
          exact ⟨_, rfl, rfl, rfl, rfl, rfl⟩
        · rw [if_neg hlow, if_neg hhigh, dif_pos (by omega), if_neg (by omega), if_neg hlow, if_neg (by omega),
            if_neg hhigh]
          exact ⟨_, rfl, rfl, rfl, rfl, rfl⟩
    · refine .inl ⟨Nat.le_of_not_lt hascii, hlead, ?_⟩
      rw [dif_neg (by omega), if_neg (by omega), if_neg (by omega), dif_neg (by omega), if_neg (by omega),
        if_neg (by omega), dif_neg (by omega)]

theorem PartialChar.notAscii_next (p : PartialChar) {n : Nat} (hn : p.low ≤ n) (hmore : p.more ≠ 0) :
    0x80 ≤ ((p.bits * 64 + (n - 0x80)) * 64 + (0x80 - 0x80)) * 64 ^ (p.more - 1) := by
  have hbits : p.bits * 64 + (p.low - 0x80) ≤ p.bits * 64 + (n - 0x80) := by omega
  calc 0x80 ≤ (p.bits * 64 + (p.low - 0x80)) * 64 ^ p.more := p.notAscii
    _ ≤ (p.bits * 64 + (n - 0x80)) * 64 ^ p.more := Nat.mul_le_mul_right _ hbits
    _ = ((p.bits * 64 + (n - 0x80)) * 64 + (0x80 - 0x80)) * 64 ^ (p.more - 1) := by
        rw [Nat.sub_self, Nat.add_zero, Nat.mul_assoc, ← Nat.pow_succ', Nat.succ_eq_add_one,
          Nat.sub_add_cancel (Nat.pos_of_ne_zero hmore)]

/-- A byte in the range of a character that was begun. -/
def PartialChar.push (p : PartialChar) (n : Nat) (hn : p.low ≤ n) : List Char × Option PartialChar :=
  let bits := p.bits * 64 + (n - 0x80)
  if hmore : p.more = 0 then ([Char.ofNat bits], none)
  else ([], some ⟨bits, p.more - 1, 0x80, 0xBF, by omega, p.notAscii_next hn hmore⟩)

/-- The characters that a byte completes, and the one it leaves open. -/
def decodeByte : Option PartialChar → UInt8 → List Char × Option PartialChar
  | none, b => decodeLead b
  | some p, b =>
    if h : p.low ≤ b.toNat ∧ b.toNat ≤ p.high then p.push b.toNat h.1
    else (replacementChar :: (decodeLead b).1, (decodeLead b).2)

/-- The characters of the bytes; what is malformed becomes the replacement character. -/
def decodeFrom : Option PartialChar → List UInt8 → List Char
  | none, [] => []
  | some _, [] => [replacementChar]
  | p, b :: bs => (decodeByte p b).1 ++ decodeFrom (decodeByte p b).2 bs

/-- `String::from_utf8_lossy`. -/
def decodeLossy (bytes : List UInt8) : List Char := decodeFrom none bytes

theorem decodeFrom_cons (p : Option PartialChar) (b : UInt8) (bs : List UInt8) :
    decodeFrom p (b :: bs) = (decodeByte p b).1 ++ decodeFrom (decodeByte p b).2 bs := by
  cases p <;> rfl

/-! ## Where a character starts -/

/-- A byte that can only continue a character. -/
def isContinuation (b : UInt8) : Bool := decide (0x80 ≤ b.toNat ∧ b.toNat ≤ 0xBF)

theorem decodeByte_of_lead (p : PartialChar) {b : UInt8} (hb : isContinuation b = false) :
    decodeByte (some p) b = (replacementChar :: (decodeLead b).1, (decodeLead b).2) := by
  have hrange : ¬ (p.low ≤ b.toNat ∧ b.toNat ≤ p.high) := by
    have hp := p.continues
    simp only [isContinuation, decide_eq_false_iff_not] at hb
    omega
  rw [decodeByte, dif_neg hrange]

/-- A character that is not completed does not reach into bytes that start another one. -/
theorem decodeFrom_append (p : Option PartialChar) (before : List UInt8) {after : List UInt8}
    (hafter : ∀ b ∈ after.head?, isContinuation b = false) :
    decodeFrom p (before ++ after) = decodeFrom p before ++ decodeLossy after := by
  induction before generalizing p with
  | cons b before ih => rw [List.cons_append, decodeFrom_cons, ih, decodeFrom_cons, List.append_assoc]
  | nil =>
      rw [List.nil_append]
      cases p with
      | none => rfl
      | some p =>
          cases after with
          | nil => rfl
          | cons b after =>
              rw [decodeFrom_cons, decodeByte_of_lead p (hafter b rfl)]
              rfl

/-! ## How much comes out -/

/-- The characters that are still to come of a character that was begun: its replacement at most. -/
def owed (p : Option PartialChar) : Nat := if p.isSome then 1 else 0

theorem length_decodeLead (b : UInt8) : (decodeLead b).1.length + owed (decodeLead b).2 = 1 := by
  obtain ⟨-, h⟩ | ⟨-, -, h⟩ | ⟨-, next, h, -⟩ := decodeLead_cases b <;> rw [h] <;> rfl

theorem length_decodeByte (p : Option PartialChar) (b : UInt8) :
    (decodeByte p b).1.length + owed (decodeByte p b).2 ≤ owed p + 1 := by
  have hlead := length_decodeLead b
  cases p with
  | none => exact hlead.le
  | some p =>
      rw [decodeByte]
      split_ifs with hrange
      · unfold PartialChar.push
        dsimp only
        split_ifs <;> exact Nat.le_succ 1
      · show (decodeLead b).1.length + 1 + owed (decodeLead b).2 ≤ 1 + 1
        omega

theorem length_decodeFrom_le (p : Option PartialChar) (bytes : List UInt8) :
    (decodeFrom p bytes).length ≤ owed p + bytes.length := by
  induction bytes generalizing p with
  | nil =>
      cases p with
      | none => exact Nat.zero_le _
      | some p => exact Nat.le_refl _
  | cons b bytes ih =>
      have hbyte := length_decodeByte p b
      have hrest := ih (decodeByte p b).2
      rw [decodeFrom_cons, List.length_append, List.length_cons]
      omega

theorem length_decodeLossy_le (bytes : List UInt8) : (decodeLossy bytes).length ≤ bytes.length :=
  (length_decodeFrom_le none bytes).trans (Nat.zero_add _).le

/-! ## Lines -/

theorem toNat_charOfNat {n : Nat} (hn : n.isValidChar) : (Char.ofNat n).toNat = n := by
  rw [Char.ofNat, dif_pos hn]
  rfl

theorem charOfNat_ne {n : Nat} {c : Char} (hn : n ≠ c.toNat) (hc : c.toNat ≠ 0) : Char.ofNat n ≠ c := by
  rintro rfl
  by_cases hvalid : n.isValidChar
  · exact hn (toNat_charOfNat hvalid).symm
  · refine hc ?_
    rw [Char.ofNat, dif_neg hvalid]
    rfl

/-- Only the byte of a line feed becomes one. -/
theorem lineFeed_not_mem_decodeLead {b : UInt8} (hb : b ≠ 0x0A) : '\n' ∉ (decodeLead b).1 := by
  have hn : b.toNat ≠ '\n'.toNat := fun h => hb (UInt8.toNat_inj.1 h)
  have hascii : '\n' ≠ Char.ofNat b.toNat := (charOfNat_ne hn (by decide)).symm
  have hreplaced : '\n' ≠ replacementChar := by decide
  obtain ⟨-, h⟩ | ⟨-, -, h⟩ | ⟨-, next, h, -⟩ := decodeLead_cases b <;> simp [h, hascii, hreplaced]

theorem lineFeed_not_mem_push (p : PartialChar) {n : Nat} (hn : p.low ≤ n) : '\n' ∉ (p.push n hn).1 := by
  unfold PartialChar.push
  dsimp only
  split_ifs with hmore
  · have hbits := p.notAscii
    rw [hmore, Nat.pow_zero, Nat.mul_one] at hbits
    have hlarge : p.bits * 64 + (n - 0x80) ≠ '\n'.toNat := by
      show _ ≠ 10
      omega
    exact List.mem_singleton.not.2 (charOfNat_ne hlarge (by decide)).symm
  · exact List.not_mem_nil

theorem lineFeed_not_mem_decodeFrom (p : Option PartialChar) {bytes : List UInt8} (hbytes : 0x0A ∉ bytes) :
    '\n' ∉ decodeFrom p bytes := by
  induction bytes generalizing p with
  | nil =>
      cases p with
      | none => exact List.not_mem_nil
      | some p => exact List.mem_singleton.not.2 (by decide)
  | cons b bytes ih =>
      rw [List.mem_cons, not_or] at hbytes
      have hlead := lineFeed_not_mem_decodeLead (Ne.symm hbytes.1)
      rw [decodeFrom_cons, List.mem_append, not_or]
      refine ⟨?_, ih _ hbytes.2⟩
      cases p with
      | none => exact hlead
      | some p =>
          rw [decodeByte]
          split_ifs with hrange
          · exact lineFeed_not_mem_push p hrange.1
          · exact List.not_mem_cons_of_ne_of_not_mem (by decide) hlead

theorem lineFeed_not_mem_decodeLossy {bytes : List UInt8} (hbytes : 0x0A ∉ bytes) : '\n' ∉ decodeLossy bytes :=
  lineFeed_not_mem_decodeFrom none hbytes

theorem decodeLossy_lineFeed (bytes : List UInt8) : decodeLossy (0x0A :: bytes) = '\n' :: decodeLossy bytes := rfl

/-- The lines of what is decoded are the lines, decoded. -/
theorem splitOn_decodeLossy (bytes : List UInt8) :
    (decodeLossy bytes).splitOn '\n' = (bytes.splitOn 0x0A).map decodeLossy := by
  induction bytes using lines_induction (0x0A : UInt8) with
  | last line hline =>
      rw [List.splitOn_eq_singleton hline, List.splitOn_eq_singleton (lineFeed_not_mem_decodeLossy hline)]
      rfl
  | step line rest hline ih =>
      have hdecode : decodeLossy (line ++ 0x0A :: rest) = decodeLossy line ++ '\n' :: decodeLossy rest := by
        rw [← decodeLossy_lineFeed]
        exact decodeFrom_append none line (by simp [isContinuation])
      rw [hdecode, List.splitOn_append_cons_self, List.splitOn_append_cons_self, List.map_append, ih,
        List.splitOn_eq_singleton (lineFeed_not_mem_decodeLossy hline), List.splitOn_eq_singleton hline]
      rfl

/-! ## What decodes without a replacement -/

/-- The character that the bytes leave open. -/
def pendingAfter (p : Option PartialChar) (bytes : List UInt8) : Option PartialChar :=
  bytes.foldl (fun p b => (decodeByte p b).2) p

theorem decodeFrom_append_of_pending (p : Option PartialChar) (before after : List UInt8)
    (hdone : pendingAfter p before = none) :
    decodeFrom p (before ++ after) = decodeFrom p before ++ decodeLossy after := by
  induction before generalizing p with
  | nil =>
      rw [show p = none from hdone]
      rfl
  | cons b before ih =>
      rw [List.cons_append, decodeFrom_cons, ih _ hdone, decodeFrom_cons, List.append_assoc]

theorem pendingAfter_eq_none (p : Option PartialChar) {bytes : List UInt8}
    (hbytes : replacementChar ∉ decodeFrom p bytes) : pendingAfter p bytes = none := by
  induction bytes generalizing p with
  | nil =>
      cases p with
      | none => rfl
      | some p => exact absurd (List.mem_singleton_self _) hbytes
  | cons b bytes ih =>
      rw [decodeFrom_cons, List.mem_append, not_or] at hbytes
      exact ih _ hbytes.2

theorem decodeLossy_append_of_left {before : List UInt8} (hbefore : replacementChar ∉ decodeLossy before)
    (after : List UInt8) : decodeLossy (before ++ after) = decodeLossy before ++ decodeLossy after :=
  decodeFrom_append_of_pending none before after (pendingAfter_eq_none none hbefore)

theorem decodeLossy_append_of_right (before : List UInt8) {after : List UInt8}
    (hafter : replacementChar ∉ decodeLossy after) :
    decodeLossy (before ++ after) = decodeLossy before ++ decodeLossy after := by
  refine decodeFrom_append none before fun b hb => ?_
  obtain ⟨rest, rfl⟩ := List.head?_eq_some_iff.1 hb
  by_contra hcontinues
  rw [Bool.not_eq_false, isContinuation, decide_eq_true_eq] at hcontinues
  refine hafter ?_
  have hlead : decodeLead b = ([replacementChar], none) := by
    obtain ⟨hlt, h⟩ | ⟨-, -, h⟩ | ⟨hge, -⟩ := decodeLead_cases b
    · omega
    · exact h
    · omega
  rw [decodeLossy, decodeFrom_cons, decodeByte, hlead]
  exact List.mem_append_left _ (List.mem_singleton_self _)

/-! ## Valid UTF-8 -/

theorem decodeFrom_last (p : PartialChar) {n : Nat} (hn : n < 256) (hrange : p.low ≤ n ∧ n ≤ p.high)
    (hmore : p.more = 0) (bytes : List UInt8) :
    decodeFrom (some p) (UInt8.ofNat n :: bytes) = Char.ofNat (p.bits * 64 + (n - 0x80)) :: decodeLossy bytes := by
  have hbyte : (UInt8.ofNat n).toNat = n := Nat.mod_eq_of_lt hn
  have hpush : decodeByte (some p) (UInt8.ofNat n) = ([Char.ofNat (p.bits * 64 + (n - 0x80))], none) := by
    simp only [decodeByte, hbyte, hrange, PartialChar.push, hmore, and_self, dif_pos]
  rw [decodeFrom_cons, hpush]
  rfl

theorem decodeFrom_more (p : PartialChar) {n : Nat} (hn : n < 256) (hrange : p.low ≤ n ∧ n ≤ p.high)
    (hmore : p.more ≠ 0) (bytes : List UInt8) :
    ∃ next : PartialChar, decodeFrom (some p) (UInt8.ofNat n :: bytes) = decodeFrom (some next) bytes
      ∧ next.bits = p.bits * 64 + (n - 0x80) ∧ next.more = p.more - 1 ∧ next.low = 0x80 ∧ next.high = 0xBF := by
  have hbyte : (UInt8.ofNat n).toNat = n := Nat.mod_eq_of_lt hn
  refine ⟨⟨p.bits * 64 + (n - 0x80), p.more - 1, 0x80, 0xBF, by omega, p.notAscii_next hrange.1 hmore⟩, ?_,
    rfl, rfl, rfl, rfl⟩
  have hpush : decodeByte (some p) (UInt8.ofNat n) = ([], some ⟨p.bits * 64 + (n - 0x80), p.more - 1, 0x80, 0xBF,
      by omega, p.notAscii_next hrange.1 hmore⟩) := by
    simp only [decodeByte, hbyte, hrange, PartialChar.push, hmore, and_self, dif_pos]
    rfl
  rw [decodeFrom_cons, hpush]
  rfl

/-- The first byte of a character of two bytes or more. -/
theorem decodeLossy_lead {n : Nat} (hn : 0xC2 ≤ n ∧ n ≤ 0xF4) (bytes : List UInt8) :
    ∃ next : PartialChar, decodeLossy (UInt8.ofNat n :: bytes) = decodeFrom (some next) bytes
      ∧ next.bits = (if n ≤ 0xDF then n - 0xC0 else if n ≤ 0xEF then n - 0xE0 else n - 0xF0)
      ∧ next.more = (if n ≤ 0xDF then 0 else if n ≤ 0xEF then 1 else 2)
      ∧ next.low = (if n = 0xE0 then 0xA0 else if n = 0xF0 then 0x90 else 0x80)
      ∧ next.high = (if n = 0xED then 0x9F else if n = 0xF4 then 0x8F else 0xBF) := by
  have hbyte : (UInt8.ofNat n).toNat = n := Nat.mod_eq_of_lt (by omega)
  have hcases := decodeLead_cases (UInt8.ofNat n)
  rw [hbyte] at hcases
  obtain ⟨hlt, -⟩ | ⟨-, hno, -⟩ | ⟨-, next, hnext, hfields⟩ := hcases
  · omega
  · exact absurd hn hno
  · refine ⟨next, ?_, hfields⟩
    rw [decodeLossy, decodeFrom_cons, decodeByte, hnext]
    rfl

/-- The bytes of a character in front of others. -/
theorem decodeLossy_utf8EncodeChar (c : Char) (bytes : List UInt8) :
    decodeLossy (String.utf8EncodeChar c ++ bytes) = c :: decodeLossy bytes := by
  have hvalid : c.toNat < 0xD800 ∨ 0xDFFF < c.toNat ∧ c.toNat < 0x110000 := c.valid
  have hback : ∀ n, n = c.toNat → Char.ofNat n = c := by
    rintro _ rfl
    exact Char.ofNat_toNat c
  unfold String.utf8EncodeChar
  dsimp only
  change c.val.toNat < 0xD800 ∨ 0xDFFF < c.val.toNat ∧ c.val.toNat < 0x110000 at hvalid
  change ∀ n, n = c.val.toNat → Char.ofNat n = c at hback
  generalize c.val.toNat = v at hvalid hback
  split_ifs with hone htwo hthree <;> simp only [List.cons_append, List.nil_append]
  · have hlead : decodeLead (UInt8.ofNat v) = ([c], none) := by
      have hbyte : (UInt8.ofNat v).toNat = v := Nat.mod_eq_of_lt (by omega)
      have hcases := decodeLead_cases (UInt8.ofNat v)
      rw [hbyte] at hcases
      obtain ⟨-, h⟩ | ⟨hge, -⟩ | ⟨hge, -⟩ := hcases
      · rw [h, hback v rfl]
      · omega
      · omega
    rw [decodeLossy, decodeFrom_cons, decodeByte, hlead]
    rfl
  · obtain ⟨p, hp, hbits, hmore, hlow, hhigh⟩ := decodeLossy_lead (n := v / 64 % 32 + 192) (by omega)
      (UInt8.ofNat (v % 64 + 128) :: bytes)
    rw [hp, decodeFrom_last p (by omega) (by split_ifs at hlow hhigh <;> omega) (by split_ifs at hmore <;> omega),
      hback _ (by split_ifs at hbits <;> omega)]
  · obtain ⟨p, hp, hbits, hmore, hlow, hhigh⟩ := decodeLossy_lead (n := v / 4096 % 16 + 224) (by omega)
      (UInt8.ofNat (v / 64 % 64 + 128) :: UInt8.ofNat (v % 64 + 128) :: bytes)
    obtain ⟨q, hq, hqbits, hqmore, hqlow, hqhigh⟩ := decodeFrom_more p (n := v / 64 % 64 + 128) (by omega)
      (by split_ifs at hlow hhigh <;> omega) (by split_ifs at hmore <;> omega) (UInt8.ofNat (v % 64 + 128) :: bytes)
    rw [hp, hq, decodeFrom_last q (by omega) (by omega) (by split_ifs at hmore <;> omega),
      hback _ (by split_ifs at hbits <;> omega)]
  · obtain ⟨p, hp, hbits, hmore, hlow, hhigh⟩ := decodeLossy_lead (n := v / 262144 % 8 + 240) (by omega)
      (UInt8.ofNat (v / 4096 % 64 + 128) :: UInt8.ofNat (v / 64 % 64 + 128) :: UInt8.ofNat (v % 64 + 128) :: bytes)
    obtain ⟨q, hq, hqbits, hqmore, hqlow, hqhigh⟩ := decodeFrom_more p (n := v / 4096 % 64 + 128) (by omega)
      (by split_ifs at hlow hhigh <;> omega) (by split_ifs at hmore <;> omega)
      (UInt8.ofNat (v / 64 % 64 + 128) :: UInt8.ofNat (v % 64 + 128) :: bytes)
    obtain ⟨r, hr, hrbits, hrmore, hrlow, hrhigh⟩ := decodeFrom_more q (n := v / 64 % 64 + 128) (by omega)
      (by omega) (by split_ifs at hmore <;> omega) (UInt8.ofNat (v % 64 + 128) :: bytes)
    rw [hp, hq, hr, decodeFrom_last r (by omega) (by omega) (by split_ifs at hmore <;> omega),
      hback _ (by split_ifs at hbits <;> omega)]

theorem decodeLossy_utf8 (text : List Char) : decodeLossy (text.flatMap String.utf8EncodeChar) = text := by
  induction text with
  | nil => rfl
  | cons c text ih => rw [List.flatMap_cons, decodeLossy_utf8EncodeChar, ih]

/-- The bytes of a text without line feeds have none. -/
theorem lineFeed_not_mem_utf8 {text : List Char} (htext : '\n' ∉ text) :
    0x0A ∉ text.flatMap String.utf8EncodeChar := by
  intro hmem
  obtain ⟨before, after, hbytes, hbefore⟩ := List.eq_append_cons_of_mem hmem
  -- the bytes would be two lines, and the text is one
  have hsplit := splitOn_decodeLossy (text.flatMap String.utf8EncodeChar)
  rw [decodeLossy_utf8, List.splitOn_eq_singleton htext, hbytes, List.splitOn_append_cons_self,
    List.splitOn_eq_singleton hbefore, List.map_append, List.map_singleton] at hsplit
  obtain ⟨first, rest, hafter⟩ := List.exists_cons_of_ne_nil (List.splitOn_ne_nil 0x0A after)
  rw [hafter] at hsplit
  simp at hsplit

/-! ## Text that is refused when it is not UTF-8 -/

/-- The text that has these bytes. -/
def decodeUtf8 (bytes : List UInt8) : Option (List Char) :=
  let text := decodeLossy bytes
  if text.flatMap String.utf8EncodeChar = bytes then some text else none

theorem decodeUtf8_utf8 (text : List Char) : decodeUtf8 (text.flatMap String.utf8EncodeChar) = some text := by
  unfold decodeUtf8
  dsimp only
  rw [decodeLossy_utf8, if_pos rfl]

end Godwit

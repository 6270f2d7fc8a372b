import Godwit.Api.Admission

set_option autoImplicit false

/-! # The token estimate of a request that grows

A quarter of the bytes plus the requested maximum never gets smaller when a request grows, and is at least 1. The
estimate is this total narrowed to a `u32`: it keeps the low 32 bits, so a request whose total passes a multiple of
2 ^ 32 can be estimated at less than a smaller one, or at nothing. -/

namespace Godwit

/-- The bytes that a message counts for. -/
def ChatMessage.bytes (m : ChatMessage) : Nat :=
  (m.content.elim 0 fun items => (items.map ChatContent.len).sum) + m.role.utf8ByteSize

/-- The tokens of a request before they are narrowed. -/
def ChatCompletionRequest.totalTokens (req : ChatCompletionRequest) : Nat :=
  max ((req.messages.map ChatMessage.bytes).sum / 4 + req.maxTokens.elim 0 fun n => n.toInt.toNat) 1

theorem estimateRequestTokens_eq (req : ChatCompletionRequest) :
    estimateRequestTokens req = req.totalTokens % 2 ^ 32 :=
  rfl

/-! ## Growth -/

/-- One text of a content item becomes longer. -/
inductive ChatContent.Lengthens : ChatContent → ChatContent → Prop
  | text (t t' : String) (h : t.utf8ByteSize ≤ t'.utf8ByteSize) : Lengthens (.text t) (.text t')
  | part (before after : List ChatContentPart) (t t' : String) (h : t.utf8ByteSize ≤ t'.utf8ByteSize) :
      Lengthens (.parts (before ++ .text t :: after)) (.parts (before ++ .text t' :: after))

/-- A request grows by a message, by a longer text, or by a larger `max_tokens`. -/
inductive ChatCompletionRequest.Grows : ChatCompletionRequest → ChatCompletionRequest → Prop
  | appendMessage (req : ChatCompletionRequest) (m : ChatMessage) :
      Grows req { req with messages := req.messages ++ [m] }
  | lengthenText (req : ChatCompletionRequest) (before after : List ChatMessage) (m : ChatMessage)
      (first rest : List ChatContent) (c c' : ChatContent) (hm : m.content = some (first ++ c :: rest))
      (hreq : req.messages = before ++ m :: after) (h : c.Lengthens c') :
      Grows req { req with messages := before ++ { m with content := some (first ++ c' :: rest) } :: after }
  | raiseMaxTokens (req : ChatCompletionRequest) (n n' : Int32) (hreq : req.maxTokens = some n)
      (h : n.toInt ≤ n'.toInt) : Grows req { req with maxTokens := some n' }

theorem ChatContent.Lengthens.len_le {c c' : ChatContent} (h : c.Lengthens c') : c.len ≤ c'.len := by
  cases h with
  | text t t' h => exact h
  | part before after t t' h =>
      simp only [ChatContent.len, List.map_append, List.map_cons, List.sum_append, List.sum_cons,
        ChatContentPart.len]
      omega

theorem ChatMessage.bytes_lengthen {m : ChatMessage} {first rest : List ChatContent} {c c' : ChatContent}
    (hm : m.content = some (first ++ c :: rest)) (h : c.Lengthens c') :
    m.bytes ≤ ChatMessage.bytes { m with content := some (first ++ c' :: rest) } := by
  have hlen := h.len_le
  simp only [ChatMessage.bytes, hm, Option.elim_some, List.map_append, List.map_cons, List.sum_append,
    List.sum_cons]
  omega

/-- One step of growth keeps the total or makes it larger. -/
theorem ChatCompletionRequest.Grows.totalTokens_le {req req' : ChatCompletionRequest} (h : req.Grows req') :
    req.totalTokens ≤ req'.totalTokens := by
  have hmono : ∀ {bytes bytes' tokens tokens' : Nat}, bytes ≤ bytes' → tokens ≤ tokens' →
      max (bytes / 4 + tokens) 1 ≤ max (bytes' / 4 + tokens') 1 := by
    intro bytes bytes' tokens tokens' hbytes htokens
    have hquarter : bytes / 4 ≤ bytes' / 4 := Nat.div_le_div_right hbytes
    exact max_le_max (Nat.add_le_add hquarter htokens) (Nat.le_refl 1)
  cases h with
  | appendMessage m =>
      refine hmono ?_ (Nat.le_refl _)
      rw [List.map_append, List.sum_append]
      exact Nat.le_add_right _ _
  | lengthenText before after m first rest c c' hm hreq h =>
      refine hmono ?_ (Nat.le_refl _)
      have hbytes := ChatMessage.bytes_lengthen hm h
      simp only [hreq, List.map_append, List.map_cons, List.sum_append, List.sum_cons]
      omega
  | raiseMaxTokens n n' hreq h =>
      refine hmono (Nat.le_refl _) ?_
      rw [hreq]
      exact Int.toNat_le_toNat h

theorem ChatCompletionRequest.totalTokens_le {req req' : ChatCompletionRequest}
    (h : Relation.ReflTransGen ChatCompletionRequest.Grows req req') : req.totalTokens ≤ req'.totalTokens := by
  induction h with
  | refl => exact Nat.le_refl _
  | tail _ hlast ih => exact ih.trans hlast.totalTokens_le

/-! ## The low 32 bits -/

/-- No total is a multiple of 2 ^ 32, and what a request grows by does not carry out of the low 32 bits. -/
structure ChatCompletionRequest.GrowsWithin (req req' : ChatCompletionRequest) : Prop where
  before : ¬ 2 ^ 32 ∣ req.totalTokens
  after : ¬ 2 ^ 32 ∣ req'.totalTokens
  carry : req.totalTokens % 2 ^ 32 + (req'.totalTokens - req.totalTokens) % 2 ^ 32 < 2 ^ 32

/-- The remainder of a sum is at least that of its first term exactly when nothing is carried. -/
theorem mod_le_mod_add_iff {n m d : Nat} (hm : 0 < m) : n % m ≤ (n + d) % m ↔ n % m + d % m < m := by
  have hn := Nat.mod_lt n hm
  have hd := Nat.mod_lt d hm
  rw [Nat.add_mod]
  by_cases hcarry : n % m + d % m < m
  · rw [Nat.mod_eq_of_lt hcarry]
    exact iff_of_true (Nat.le_add_right _ _) hcarry
  · have hwrapped : (n % m + d % m) % m = n % m + d % m - m := by
      rw [Nat.mod_eq_sub_mod (Nat.le_of_not_lt hcarry), Nat.mod_eq_of_lt (by omega)]
    rw [hwrapped]
    exact iff_of_false (by omega) hcarry

theorem one_le_mod_iff {n m : Nat} : 1 ≤ n % m ↔ ¬ m ∣ n := by
  rw [Nat.dvd_iff_mod_eq_zero, Nat.one_le_iff_ne_zero]

theorem ChatCompletionRequest.one_le_totalTokens (req : ChatCompletionRequest) : 1 ≤ req.totalTokens :=
  Nat.le_max_right _ _

theorem ChatCompletionRequest.GrowsWithin.of_lt {req req' : ChatCompletionRequest}
    (hle : req.totalTokens ≤ req'.totalTokens) (hlt : req'.totalTokens < 2 ^ 32) : req.GrowsWithin req' := by
  have hpos := req.one_le_totalTokens
  refine ⟨Nat.not_dvd_of_pos_of_lt (by omega) (by omega), Nat.not_dvd_of_pos_of_lt (by omega) hlt, ?_⟩
  rw [Nat.mod_eq_of_lt (by omega), Nat.mod_eq_of_lt (by omega)]
  omega

/-- A request that grows is estimated at no less than before, and both at 1 or more, exactly when no total is a
    multiple of 2 ^ 32 and the growth carries nothing out of the low 32 bits. Below 2 ^ 32 this is always so. -/
theorem estimateRequestTokens_grows {req req' : ChatCompletionRequest}
    (h : Relation.ReflTransGen ChatCompletionRequest.Grows req req') :
    ((1 ≤ estimateRequestTokens req ∧ 1 ≤ estimateRequestTokens req'
        ∧ estimateRequestTokens req ≤ estimateRequestTokens req') ↔ req.GrowsWithin req')
      ∧ (req'.totalTokens < 2 ^ 32 → req.GrowsWithin req') := by
  have hle := ChatCompletionRequest.totalTokens_le h
  refine ⟨?_, .of_lt hle⟩
  have hcarry := mod_le_mod_add_iff (n := req.totalTokens) (m := 2 ^ 32)
    (d := req'.totalTokens - req.totalTokens) (by decide)
  rw [Nat.add_sub_of_le hle] at hcarry
  rw [estimateRequestTokens_eq, estimateRequestTokens_eq, one_le_mod_iff, one_le_mod_iff, hcarry]
  exact ⟨fun ⟨hbefore, hafter, hlow⟩ => ⟨hbefore, hafter, hlow⟩, fun h => ⟨h.before, h.after, h.carry⟩⟩

/-! ## A request of 8 GiB -/

/-- A user message of as many bytes. -/
def sizedMessage (length : Nat) : ChatMessage where
  role := "user"
  content := some [.text (String.ofList (List.replicate length 'a'))]
  name := none
  toolCalls := none
  toolCallId := none
  cacheControl := none

/-- A message without content. -/
def emptyMessage : ChatMessage :=
  { sizedMessage 0 with content := none }

/-- A request with one message of this length. -/
def sizedRequest (length : Nat) (maxTokens : Int32) : ChatCompletionRequest where
  model := "gpt-4o"
  messages := [sizedMessage length]
  stream := none
  maxTokens := some maxTokens
  tools := none
  responseFormat := none
  parameters := .null

/-- The same request with an empty message more. -/
def grownRequest (length : Nat) (maxTokens : Int32) : ChatCompletionRequest :=
  { sizedRequest length maxTokens with messages := (sizedRequest length maxTokens).messages ++ [emptyMessage] }

theorem utf8ByteSize_replicate (length : Nat) :
    (String.ofList (List.replicate length 'a')).utf8ByteSize = length := by
  induction length with
  | zero => rfl
  | succ n ih =>
      rw [List.replicate_succ', String.ofList_append, String.utf8ByteSize_append, ih]
      rfl

theorem sizedMessage_bytes (length : Nat) : (sizedMessage length).bytes = length + 4 := by
  simp only [sizedMessage, ChatMessage.bytes, Option.elim_some, List.map_cons, List.map_nil, List.sum_cons,
    List.sum_nil, ChatContent.len, utf8ByteSize_replicate]
  rfl

theorem grownRequest_totalTokens (length : Nat) (maxTokens : Int32) :
    (grownRequest length maxTokens).totalTokens = max ((length + 8) / 4 + maxTokens.toInt.toNat) 1 := by
  have hempty : emptyMessage.bytes = 4 := by decide
  simp [grownRequest, sizedRequest, ChatCompletionRequest.totalTokens, sizedMessage_bytes, hempty, Nat.add_assoc]

theorem estimateRequestTokens_grows_sample :
    ((1 ≤ estimateRequestTokens (sizedRequest 8 100) ∧ 1 ≤ estimateRequestTokens (sizedRequest 8 200)
        ∧ estimateRequestTokens (sizedRequest 8 100) ≤ estimateRequestTokens (sizedRequest 8 200))
        ↔ (sizedRequest 8 100).GrowsWithin (sizedRequest 8 200))
      ∧ ((sizedRequest 8 200).totalTokens < 2 ^ 32 → (sizedRequest 8 100).GrowsWithin (sizedRequest 8 200)) :=
  estimateRequestTokens_grows (.single (.raiseMaxTokens (sizedRequest 8 100) 100 200 rfl (by decide)))

/-- With the largest `max_tokens` a text of 8 GiB is estimated at 2 ^ 32 - 1 tokens, and together with an empty
    message at none. -/
theorem estimateRequestTokens_wraps :
    ¬ ∀ req req' : ChatCompletionRequest, req.Grows req' →
      1 ≤ estimateRequestTokens req' ∧ estimateRequestTokens req ≤ estimateRequestTokens req' := by
  intro h
  have hgrown : 1 ≤ estimateRequestTokens (grownRequest (2 ^ 33 - 4) Int32.maxValue) :=
    (h _ _ (.appendMessage (sizedRequest (2 ^ 33 - 4) Int32.maxValue) emptyMessage)).1
  have htotal : (grownRequest (2 ^ 33 - 4) Int32.maxValue).totalTokens = 2 ^ 32 := by
    have hmax : Int32.maxValue.toInt.toNat = 2147483647 := rfl
    rw [grownRequest_totalTokens, hmax]
    omega
  rw [estimateRequestTokens_eq, htotal, Nat.mod_self] at hgrown
  exact Nat.not_succ_le_zero 0 hgrown

end Godwit

import Mathlib.Data.List.Nodup
import Mathlib.Data.Finset.Dedup
import Mathlib.Data.Finset.SDiff
import Mathlib.Logic.Function.Basic

set_option autoImplicit false

/-! # Maps that know how recently a key was used

`RecencyMap` is a finite map with its keys in the order of their last use. `lastUse` tells when a key was
last used in a history of steps; `UsedInOrder` says that some keys stand in the order of their last use,
which using a key and dropping keys keep. The first key of such an order is the least recently used. -/

namespace Godwit

/-! ## The map -/

/-- A map whose keys are in the order of their last use. -/
@[ext] structure RecencyMap (K E : Type) where
  find : K → Option E
  /-- The keys, the least recently used one first. -/
  order : List K
  nodup : order.Nodup
  mem_order : ∀ k, k ∈ order ↔ (find k).isSome = true

section Map

variable {K E : Type}

/-- No key. -/
def RecencyMap.empty : RecencyMap K E where
  find _ := none
  order := []
  nodup := List.nodup_nil
  mem_order k := by simp

variable [DecidableEq K]

/-- Without a key. -/
def RecencyMap.erase (m : RecencyMap K E) (k : K) : RecencyMap K E where
  find := Function.update m.find k none
  order := m.order.erase k
  nodup := m.nodup.erase k
  mem_order k' := by
    rw [m.nodup.mem_erase_iff, m.mem_order]
    by_cases hk : k' = k
    · subst hk
      simp
    · simp [hk]

/-- Use a key, with a new entry. -/
def RecencyMap.put (m : RecencyMap K E) (k : K) (e : E) : RecencyMap K E where
  find := Function.update m.find k (some e)
  order := m.order.erase k ++ [k]
  nodup := by
    rw [List.nodup_append]
    refine ⟨m.nodup.erase k, List.nodup_singleton k, ?_⟩
    rintro a ha b hb rfl
    rw [List.mem_singleton.1 hb, m.nodup.mem_erase_iff] at ha
    exact ha.1 rfl
  mem_order k' := by
    rw [List.mem_append, List.mem_singleton, m.nodup.mem_erase_iff, m.mem_order]
    by_cases hk : k' = k
    · subst hk
      simp
    · simp [hk]

/-- Drop the least recently used key. -/
def RecencyMap.evict (m : RecencyMap K E) : RecencyMap K E :=
  match m.order with
  | [] => m
  | k :: _ => m.erase k

/-- Keep the entries that pass a test. -/
def RecencyMap.keep (m : RecencyMap K E) (p : E → Bool) : RecencyMap K E where
  find k := (m.find k).filter p
  order := m.order.filter fun k => (m.find k).any p
  nodup := m.nodup.filter _
  mem_order k := by
    rw [List.mem_filter, m.mem_order]
    cases m.find k with
    | none => simp
    | some e => by_cases he : p e = true <;> simp [Option.filter, he]

end Map

/-! ## Histories -/

section History

variable {S K : Type} (uses : S → K → Prop) [∀ s k, Decidable (uses s k)]

/-- The number of steps up to the last one that uses the key, and zero when none does. -/
def lastUse (history : List S) (k : K) : Nat :=
  (history.reverse.dropWhile fun s => !decide (uses s k)).length

variable {uses}

theorem lastUse_snoc (past : List S) (s : S) (k : K) :
    lastUse uses (past ++ [s]) k = if uses s k then past.length + 1 else lastUse uses past k := by
  unfold lastUse
  rw [List.reverse_concat]
  by_cases huse : uses s k
  · rw [List.dropWhile_cons_of_neg (by simp [huse]), if_pos huse, List.length_cons, List.length_reverse]
  · rw [List.dropWhile_cons_of_pos (by simp [huse]), if_neg huse]

theorem lastUse_le (past : List S) (k : K) : lastUse uses past k ≤ past.length :=
  (List.dropWhile_sublist _).length_le.trans_eq (List.length_reverse)

variable (uses) in
/-- The keys stand in the order of their last use. -/
def UsedInOrder (past : List S) (keys : List K) : Prop :=
  keys.Pairwise fun a b => lastUse uses past a < lastUse uses past b

/-- A step that uses none of the keys leaves those that stay in order. -/
theorem UsedInOrder.rest {past : List S} {keys keys' : List K} (h : UsedInOrder uses past keys) {s : S}
    (hsub : keys'.Sublist keys) (hidle : ∀ k ∈ keys', ¬ uses s k) : UsedInOrder uses (past ++ [s]) keys' := by
  refine (h.sublist hsub).imp_of_mem fun {a b} ha hb hab => ?_
  rwa [lastUse_snoc, lastUse_snoc, if_neg (hidle a ha), if_neg (hidle b hb)]

/-- A step that uses one key puts it last. -/
theorem UsedInOrder.use {past : List S} {keys keys' : List K} (h : UsedInOrder uses past keys) {s : S} {k : K}
    (hsub : keys'.Sublist keys) (huses : ∀ k', uses s k' ↔ k' = k) (hgone : k ∉ keys') :
    UsedInOrder uses (past ++ [s]) (keys' ++ [k]) := by
  have hidle : ∀ k' ∈ keys', ¬ uses s k' := fun k' hk' huse => hgone ((huses k').1 huse ▸ hk')
  refine List.pairwise_append.2 ⟨h.rest hsub hidle, List.pairwise_singleton _ _, ?_⟩
  intro a ha b hb
  rw [List.mem_singleton.1 hb, lastUse_snoc, lastUse_snoc, if_neg (hidle a ha), if_pos ((huses k).2 rfl)]
  exact Nat.lt_succ_of_le (lastUse_le past a)

/-- The least recently used of some keys. -/
def IsOldest (last : K → Nat) (keys : Finset K) (k : K) : Prop :=
  k ∈ keys ∧ ∀ k' ∈ keys, k' ≠ k → last k < last k'

theorem UsedInOrder.head [DecidableEq K] {past : List S} {k : K} {rest : List K}
    (h : UsedInOrder uses past (k :: rest)) : IsOldest (lastUse uses past) (k :: rest).toFinset k := by
  refine ⟨by simp, fun k' hk' hne => ?_⟩
  rw [List.mem_toFinset, List.mem_cons] at hk'
  exact List.rel_of_pairwise_cons h (hk'.resolve_left hne)

end History

end Godwit

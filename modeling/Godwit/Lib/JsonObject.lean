import Mathlib.Data.Char
import Mathlib.Data.List.Lex
import Mathlib.Order.Basic
import Godwit.Lib.Json

set_option autoImplicit false

/-! # Objects in key order

The keys of an object ascend, so that an object is determined by what is found under each key
(`fields_ext`). -/

namespace Godwit

theorem keyBefore_iff (a b : List Char) : keyBefore a b = true ↔ a < b := by
  induction a generalizing b with
  | nil => cases b <;> simp [keyBefore]
  | cons x a ih =>
      cases b with
      | nil => simp [keyBefore]
      | cons y b => simp [keyBefore, ih, List.cons_lt_cons_iff, Char.lt_def, UInt32.lt_iff_toNat_lt]

theorem keysAscend_cons {f : String × Json} {rest : List (String × Json)} :
    keysAscend (f :: rest) = true
      ↔ keysAscend rest = true ∧ ∀ next, rest.head? = some next → f.1.toList < next.1.toList := by
  obtain ⟨k, v⟩ := f
  cases rest with
  | nil => simp [keysAscend]
  | cons next rest => simp [keysAscend, keyBefore_iff, and_comm]

/-- A key before the first one is not there. -/
theorem lookupField_of_before (key : String) {fields : List (String × Json)} (hascend : keysAscend fields = true)
    (hbefore : ∀ f, fields.head? = some f → key.toList < f.1.toList) : lookupField key fields = none := by
  induction fields with
  | nil => rfl
  | cons f rest ih =>
      obtain ⟨k, v⟩ := f
      obtain ⟨hrest, hafter⟩ := keysAscend_cons.1 hascend
      have hkey : key.toList < k.toList := hbefore (k, v) rfl
      have hne : k ≠ key := by
        rintro rfl
        exact lt_irrefl _ hkey
      rw [lookupField, if_neg hne]
      exact ih hrest fun f hf => hkey.trans (hafter f hf)

/-- Two objects with the same value under each key are the same. -/
theorem fields_ext {fields fields' : List (String × Json)} (hascend : keysAscend fields = true)
    (hascend' : keysAscend fields' = true) (h : ∀ key, lookupField key fields = lookupField key fields') :
    fields = fields' := by
  induction fields generalizing fields' with
  | nil =>
      cases fields' with
      | nil => rfl
      | cons f rest => simpa [lookupField] using h f.1
  | cons f rest ih =>
      obtain ⟨k, v⟩ := f
      cases fields' with
      | nil => simpa [lookupField] using h k
      | cons f' rest' =>
          obtain ⟨k', v'⟩ := f'
          obtain ⟨hrest, hafter⟩ := keysAscend_cons.1 hascend
          obtain ⟨hrest', hafter'⟩ := keysAscend_cons.1 hascend'
          -- a key that only one of them starts with would be missing in the other
          have hkeys : k = k' := by
            obtain hlt | heq | hgt := lt_trichotomy k.toList k'.toList
            · have hmissing := lookupField_of_before k hascend' (by simpa using hlt)
              rw [← h k, lookupField, if_pos rfl] at hmissing
              cases hmissing
            · exact String.toList_inj.1 heq
            · have hmissing := lookupField_of_before k' hascend (by simpa using hgt)
              rw [h k', lookupField, if_pos rfl] at hmissing
              cases hmissing
          subst hkeys
          have hvalues : v = v' := by simpa [lookupField] using h k
          subst hvalues
          rw [ih hrest hrest' fun key => ?_]
          by_cases hkey : k = key
          · subst hkey
            rw [lookupField_of_before k hrest hafter, lookupField_of_before k hrest' hafter']
          · simpa [lookupField, hkey] using h key

/-- With ascending keys, the first value under a key is the last. -/
theorem lookupField_reverse {fields : List (String × Json)} (hascend : keysAscend fields = true) (key : String) :
    lookupField key fields.reverse = lookupField key fields := by
  induction fields with
  | nil => rfl
  | cons f rest ih =>
      obtain ⟨k, v⟩ := f
      obtain ⟨hrest, hafter⟩ := keysAscend_cons.1 hascend
      rw [List.reverse_cons, lookupField_append, ih hrest]
      by_cases hkey : k = key
      · subst hkey
        simp [lookupField, lookupField_of_before k hrest hafter]
      · simp [lookupField, hkey]

/-! ## Objects that are built -/

theorem head?_setField {key : String} {value : Json} {fields : List (String × Json)} {f : String × Json}
    (h : (setField key value fields).head? = some f) : f.1 = key ∨ fields.head? = some f := by
  cases fields with
  | nil => exact .inl (by rw [← Option.some_inj.1 h])
  | cons first rest =>
      obtain ⟨k, v⟩ := first
      rw [setField] at h
      split at h
      · exact .inl (by rw [← Option.some_inj.1 h])
      · split at h
        · exact .inl (by rw [← Option.some_inj.1 h])
        · exact .inr h

theorem keysAscend_setField (key : String) (value : Json) {fields : List (String × Json)}
    (h : keysAscend fields = true) : keysAscend (setField key value fields) = true := by
  induction fields with
  | nil => rfl
  | cons f rest ih =>
      obtain ⟨k, v⟩ := f
      obtain ⟨hrest, hafter⟩ := keysAscend_cons.1 h
      rw [setField]
      by_cases hbefore : keyBefore key.toList k.toList = true
      · rw [if_pos hbefore]
        rw [keyBefore_iff] at hbefore
        refine keysAscend_cons.2 ⟨h, fun next hnext => ?_⟩
        rw [← Option.some_inj.1 hnext]
        exact hbefore
      · rw [if_neg hbefore]
        by_cases hkey : k = key
        · subst hkey
          rw [if_pos rfl]
          exact keysAscend_cons.2 ⟨hrest, hafter⟩
        · rw [if_neg hkey]
          refine keysAscend_cons.2 ⟨ih hrest, fun next hnext => ?_⟩
          obtain hnew | hold := head?_setField hnext
          · have hne : k.toList ≠ next.1.toList := fun heq => hkey (by rw [← hnew, String.toList_inj.1 heq])
            rw [keyBefore_iff, not_lt, ← hnew] at hbefore
            exact lt_of_le_of_ne hbefore hne
          · exact hafter next hold

theorem keysAscend_objectFields (fields : List (String × Json)) : keysAscend (objectFields fields) = true := by
  have hsets : ∀ (fields acc : List (String × Json)), keysAscend acc = true →
      keysAscend (fields.foldl (fun acc f => setField f.1 f.2 acc) acc) = true := by
    intro fields
    induction fields with
    | nil => intro acc hacc; exact hacc
    | cons f rest ih => intro acc hacc; exact ih _ (keysAscend_setField f.1 f.2 hacc)
  exact hsets fields [] rfl

/-- A key that is not among some fields is not in the object that is made of them. -/
theorem lookupField_eq_none_of_not_mem {key : String} {fields : List (String × Json)}
    (h : key ∉ fields.map Prod.fst) : lookupField key fields = none := by
  induction fields with
  | nil => rfl
  | cons f rest ih =>
      obtain ⟨k, v⟩ := f
      rw [List.map_cons, List.mem_cons, not_or] at h
      rw [lookupField, if_neg (Ne.symm h.1)]
      exact ih h.2

end Godwit

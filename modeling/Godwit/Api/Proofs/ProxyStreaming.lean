import Mathlib.Data.List.Perm.Basic
import Godwit.Lib.KeyRuns
import Godwit.Lib.JsonText
import Godwit.Api.ProxyStreaming

set_option autoImplicit false

/-! # Tool calls put together from a stream

The buffer has one slot, so it makes one tool call of every run of fragments with one index. That gives
every call back exactly when the fragments of a call come without a fragment of another one in between. -/

namespace Godwit

/-! ## What is streamed -/

/-- A fragment as a provider sends it. -/
structure ToolCallFragment where
  index : Nat
  id : Option String
  type : Option String
  name : Option String
  arguments : Option String
  deriving DecidableEq, Repr

/-- A field that is left out when it has no value. -/
def optionalField (key : String) (value : Option String) : List (String × Json) :=
  (value.map fun text => (key, Json.str text)).toList

/-- A fragment as the providers send it. -/
def ToolCallFragment.toJson (f : ToolCallFragment) : Json :=
  .obj ([("function", .obj (optionalField "arguments" f.arguments ++ optionalField "name" f.name))]
    ++ optionalField "id" f.id ++ [("index", .int f.index)] ++ optionalField "type" f.type)

/-- A tool call and its fragments: the first one has the id and the name, the later ones repeat them or
    leave them out. -/
structure StreamedToolCall where
  index : Nat
  id : String
  name : String
  first : ToolCallFragment
  rest : List ToolCallFragment
  index_lt : index < 2 ^ 64
  id_ne : id ≠ ""
  name_ne : name ≠ ""
  first_id : first.id = some id
  first_name : first.name = some name
  first_index : first.index = index
  rest_index : ∀ f ∈ rest, f.index = index
  rest_id : ∀ f ∈ rest, f.id.getD "" = "" ∨ f.id = some id
  rest_name : ∀ f ∈ rest, f.name.getD "" = "" ∨ f.name = some name

namespace StreamedToolCall

/-- The fragments of a call, in order. -/
def fragments (call : StreamedToolCall) : List ToolCallFragment := call.first :: call.rest

/-- The call that its fragments make. -/
def complete (call : StreamedToolCall) : CompleteToolCall :=
  ⟨call.id, "function", ⟨call.name, String.join (call.fragments.map fun f => f.arguments.getD "")⟩⟩

end StreamedToolCall

/-- The stream has the fragments of the calls and nothing else, those of each call in their order. -/
structure Interleaves (calls : List StreamedToolCall) (stream : List ToolCallFragment) : Prop where
  distinct : (calls.map StreamedToolCall.index).Nodup
  own : ∀ call ∈ calls, stream.filter (fun f => f.index = call.index) = call.fragments
  known : ∀ f ∈ stream, ∃ call ∈ calls, f.index = call.index

/-- What the buffer makes of a stream. -/
def assembled (json : JsonCodec) (stream : List ToolCallFragment) : List CompleteToolCall :=
  ((stream.map fun f => json.toString f.toJson).foldl (ToolCallBuffer.pushDelta json) .new).finishAll.1

/-! ## Reading a fragment -/

/-- What the proxy reads of a fragment. -/
def ToolCallFragment.read (f : ToolCallFragment) : CurrentToolState :=
  ⟨f.index, f.id.getD "", f.name.getD "", f.arguments.getD ""⟩

theorem asU64_natCast {n : Nat} (h : n < 2 ^ 64) : (Json.int n).asU64 = some n := by
  have hrange : (0 : Int) ≤ n ∧ (n : Int) < 2 ^ 64 := ⟨Int.natCast_nonneg n, by exact_mod_cast h⟩
  rw [Json.asU64, if_pos hrange, Int.toNat_natCast]

namespace ToolCallFragment

theorem get_id (f : ToolCallFragment) : f.toJson.get "id" = f.id.map Json.str := by
  obtain ⟨index, id, type, name, arguments⟩ := f
  cases id <;> cases type <;> simp [toJson, optionalField, Json.get, lookupField]

theorem get_index (f : ToolCallFragment) : f.toJson.get "index" = some (.int f.index) := by
  obtain ⟨index, id, type, name, arguments⟩ := f
  cases id <;> simp [toJson, optionalField, Json.get, lookupField]

theorem get_function (f : ToolCallFragment) :
    f.toJson.get "function"
      = some (.obj (optionalField "arguments" f.arguments ++ optionalField "name" f.name)) := by
  simp [toJson, Json.get, lookupField]

end ToolCallFragment

theorem textField_str (value : Option String) : textField (value.map Json.str) = value.getD "" := by
  cases value <;> rfl

theorem readFragment_toJson {f : ToolCallFragment} (h : f.index < 2 ^ 64) : readFragment f.toJson = f.read := by
  have hname : (Json.obj (optionalField "arguments" f.arguments ++ optionalField "name" f.name)).get "name"
      = f.name.map Json.str := by
    cases f.arguments <;> cases f.name <;> simp [optionalField, Json.get, lookupField]
  have harguments : (Json.obj (optionalField "arguments" f.arguments ++ optionalField "name" f.name)).get
      "arguments" = f.arguments.map Json.str := by
    cases f.arguments <;> cases f.name <;> simp [optionalField, Json.get, lookupField]
  have hindex : ((f.toJson.get "index").bind Json.asU64).getD 0 = f.index := by
    rw [f.get_index, Option.bind_some, asU64_natCast h, Option.getD_some]
  rw [readFragment, ToolCallFragment.read, hindex, f.get_id, f.get_function, Option.bind_some, hname,
    Option.bind_some, harguments, textField_str, textField_str, textField_str]

theorem ToolCallFragment.toJson_storable {f : ToolCallFragment} (h : f.index < 2 ^ 64) :
    f.toJson.storable maxDepth = true := by
  obtain ⟨index, id, type, name, arguments⟩ := f
  have hindex : (Json.int index).storable 126 = true := by
    simp only [Json.storable, decide_eq_true_eq]
    exact ⟨by omega, by exact_mod_cast h⟩
  cases id <;> cases type <;> cases name <;> cases arguments <;>
    simp [ToolCallFragment.toJson, optionalField, maxDepth, Json.storable, Json.storableFields, keysAscend,
      keyBefore] at hindex ⊢ <;> omega

theorem pushDelta_toJson (json : JsonCodec) (buffer : ToolCallBuffer) {f : ToolCallFragment}
    (h : f.index < 2 ^ 64) :
    buffer.pushDelta json (json.toString f.toJson) = buffer.pushFragment f.read := by
  rw [ToolCallBuffer.pushDelta, json.fromStr_toString _ (ToolCallFragment.toJson_storable h)]
  simp only [readFragment_toJson h]

/-! ## One tool call for every run -/

/-- What the slot makes of a run of fragments. -/
def gather : List CurrentToolState → CompleteToolCall
  | [] => ⟨"", "function", ⟨"", ""⟩⟩
  | first :: rest => (rest.foldl CurrentToolState.add first).complete

/-- The tool calls of the runs. -/
def gatherRuns (fragments : List CurrentToolState) : List CompleteToolCall :=
  (keyRuns CurrentToolState.index fragments).map fun run => gather run.2

theorem gatherRuns_same {state fragment : CurrentToolState} (h : state.index = fragment.index)
    (rest : List CurrentToolState) :
    gatherRuns (state :: fragment :: rest) = gatherRuns (state.add fragment :: rest) := by
  simp only [gatherRuns, keyRuns]
  cases keyRuns CurrentToolState.index rest with
  | nil => simp [consRun, h, gather]
  | cons first runs =>
      obtain ⟨k, run⟩ := first
      have hadd : (state.add fragment).index = fragment.index := h
      by_cases hkey : fragment.index = k
      · simp [consRun, h, hadd, hkey, gather]
      · simp [consRun, h, hadd, hkey, gather]

theorem gatherRuns_other {state fragment : CurrentToolState} (h : state.index ≠ fragment.index)
    (rest : List CurrentToolState) :
    gatherRuns (state :: fragment :: rest) = state.complete :: gatherRuns (fragment :: rest) := by
  have hhead : (keyRuns CurrentToolState.index (fragment :: rest)).head?.map Prod.fst = some fragment.index :=
    keyRuns_head _
  simp only [gatherRuns]
  rw [keyRuns]
  cases hruns : keyRuns CurrentToolState.index (fragment :: rest) with
  | nil => simp [hruns] at hhead
  | cons first runs =>
      obtain ⟨k, run⟩ := first
      rw [hruns] at hhead
      have hk : k = fragment.index := by simpa using hhead
      have hne : state.index ≠ k := hk ▸ h
      simp [consRun, hne, gather]

/-- From a filled slot on, the buffer makes the calls of the runs that start with the slot. -/
theorem finishAll_pushes (fragments : List CurrentToolState) (state : CurrentToolState)
    (done : List CompleteToolCall) :
    (fragments.foldl ToolCallBuffer.pushFragment ⟨some state, done⟩).finishAll.1
      = done ++ gatherRuns (state :: fragments) := by
  induction fragments generalizing state done with
  | nil => rfl
  | cons fragment rest ih =>
      rw [List.foldl_cons]
      by_cases hindex : state.index = fragment.index
      · have hpush : (ToolCallBuffer.mk (some state) done).pushFragment fragment
            = ⟨some (state.add fragment), done⟩ := by
          simp [ToolCallBuffer.pushFragment, hindex]
        rw [hpush, ih, gatherRuns_same hindex]
      · have hpush : (ToolCallBuffer.mk (some state) done).pushFragment fragment
            = ⟨some fragment, done ++ [state.complete]⟩ := by
          simp [ToolCallBuffer.pushFragment, hindex]
        rw [hpush, ih, gatherRuns_other hindex, List.append_assoc, List.singleton_append]

theorem assembled_eq (json : JsonCodec) {stream : List ToolCallFragment}
    (h : ∀ f ∈ stream, f.index < 2 ^ 64) :
    assembled json stream = gatherRuns (stream.map ToolCallFragment.read) := by
  have hpushes : ∀ buffer : ToolCallBuffer,
      (stream.map fun f => json.toString f.toJson).foldl (ToolCallBuffer.pushDelta json) buffer
        = (stream.map ToolCallFragment.read).foldl ToolCallBuffer.pushFragment buffer := by
    induction stream with
    | nil => exact fun _ => rfl
    | cons f rest ih =>
        intro buffer
        simp only [List.map_cons, List.foldl_cons]
        rw [pushDelta_toJson json buffer (h f List.mem_cons_self)]
        exact ih (fun f' hf' => h f' (List.mem_cons_of_mem _ hf')) _
  rw [assembled, hpushes]
  cases stream with
  | nil => rfl
  | cons f rest => exact finishAll_pushes (rest.map ToolCallFragment.read) f.read []

/-! ## The calls of a stream -/

/-- All fragments of a call, in the slot one after another. -/
theorem StreamedToolCall.gather_fragments (call : StreamedToolCall) :
    gather (call.fragments.map ToolCallFragment.read) = call.complete := by
  have hfold : ∀ (rest : List ToolCallFragment) (arguments : String),
      (∀ f ∈ rest, f.id.getD "" = "" ∨ f.id = some call.id) →
      (∀ f ∈ rest, f.name.getD "" = "" ∨ f.name = some call.name) →
      (rest.map ToolCallFragment.read).foldl CurrentToolState.add ⟨call.index, call.id, call.name, arguments⟩
        = ⟨call.index, call.id, call.name,
            arguments ++ String.join (rest.map fun f => f.arguments.getD "")⟩ := by
    intro rest
    induction rest with
    | nil => simp
    | cons f rest ih =>
        intro arguments hid hname
        have hadd : (CurrentToolState.mk call.index call.id call.name arguments).add f.read
            = ⟨call.index, call.id, call.name, arguments ++ f.arguments.getD ""⟩ := by
          simp only [CurrentToolState.add, ToolCallFragment.read, CurrentToolState.mk.injEq, true_and, and_true]
          constructor
          · rcases hid f List.mem_cons_self with hempty | hsame
            · simp [hempty]
            · simp [hsame]
          · rcases hname f List.mem_cons_self with hempty | hsame
            · simp [hempty]
            · simp [hsame]
        rw [List.map_cons, List.foldl_cons, hadd, ih _ (fun f' hf' => hid f' (List.mem_cons_of_mem _ hf'))
          fun f' hf' => hname f' (List.mem_cons_of_mem _ hf')]
        simp [String.append_assoc]
  have hfirst : call.first.read = ⟨call.index, call.id, call.name, call.first.arguments.getD ""⟩ := by
    simp [ToolCallFragment.read, call.first_id, call.first_name, call.first_index]
  rw [fragments, List.map_cons, gather, hfirst, hfold _ _ call.rest_id call.rest_name]
  simp [CurrentToolState.complete, complete, fragments]

theorem contiguous_read (stream : List ToolCallFragment) :
    Contiguous CurrentToolState.index (stream.map ToolCallFragment.read)
      ↔ Contiguous ToolCallFragment.index stream := by
  induction stream with
  | nil => exact Iff.rfl
  | cons f rest ih =>
      have hkeys : (rest.map ToolCallFragment.read).map CurrentToolState.index
          = rest.map ToolCallFragment.index := by
        rw [List.map_map]
        rfl
      have hhead : (rest.map ToolCallFragment.read).head?.map CurrentToolState.index
          = rest.head?.map ToolCallFragment.index := by
        cases rest <;> rfl
      rw [List.map_cons, Contiguous, Contiguous, ih, hkeys, hhead]
      rfl

section Interleaves

variable {calls : List StreamedToolCall} {stream : List ToolCallFragment}

theorem Interleaves.index_lt (h : Interleaves calls stream) : ∀ f ∈ stream, f.index < 2 ^ 64 := by
  intro f hf
  obtain ⟨call, -, hindex⟩ := h.known f hf
  exact hindex ▸ call.index_lt

theorem Interleaves.mem_index (h : Interleaves calls stream) (k : Nat) :
    k ∈ stream.map ToolCallFragment.index ↔ k ∈ calls.map StreamedToolCall.index := by
  constructor
  · intro hk
    obtain ⟨f, hf, rfl⟩ := List.mem_map.1 hk
    obtain ⟨call, hcall, hindex⟩ := h.known f hf
    exact List.mem_map.2 ⟨call, hcall, hindex.symm⟩
  · intro hk
    obtain ⟨call, hcall, rfl⟩ := List.mem_map.1 hk
    have hfirst : call.first ∈ stream.filter fun f => f.index = call.index := by
      rw [h.own call hcall]
      exact List.mem_cons_self
    exact List.mem_map.2 ⟨call.first, (List.mem_filter.1 hfirst).1, call.first_index⟩

/-- Every call comes back once and whole, exactly when the fragments of no call are interrupted by those of
    another one. -/
theorem assembled_perm_iff (json : JsonCodec) (h : Interleaves calls stream) :
    (assembled json stream).Perm (calls.map StreamedToolCall.complete)
      ↔ Contiguous ToolCallFragment.index stream := by
  have hkeys : ∀ k, k ∈ (keyRuns CurrentToolState.index (stream.map ToolCallFragment.read)).map Prod.fst
      ↔ k ∈ calls.map StreamedToolCall.index := by
    intro k
    rw [mem_keys_keyRuns, ← h.mem_index, List.map_map]
    rfl
  rw [assembled_eq json h.index_lt, ← contiguous_read, ← nodup_keyRuns_iff]
  constructor
  · intro hperm
    have hlength : ((keyRuns CurrentToolState.index (stream.map ToolCallFragment.read)).map Prod.fst).length
        = (calls.map StreamedToolCall.index).length := by
      simpa [gatherRuns] using hperm.length_eq
    have hsub : (calls.map StreamedToolCall.index).Subperm
        ((keyRuns CurrentToolState.index (stream.map ToolCallFragment.read)).map Prod.fst) :=
      List.subperm_of_subset h.distinct fun k hk => (hkeys k).2 hk
    exact (hsub.perm_of_length_le hlength.le).nodup_iff.1 h.distinct
  · intro hnodup
    have hperm : ((keyRuns CurrentToolState.index (stream.map ToolCallFragment.read)).map Prod.fst).Perm
        (calls.map StreamedToolCall.index) :=
      (List.perm_ext_iff_of_nodup hnodup h.distinct).2 hkeys
    -- Each run is all of its call, so both sides gather the fragments of an index.
    have hruns : gatherRuns (stream.map ToolCallFragment.read)
        = ((keyRuns CurrentToolState.index (stream.map ToolCallFragment.read)).map Prod.fst).map fun k =>
            gather ((stream.map ToolCallFragment.read).filter fun f => f.index = k) := by
      rw [gatherRuns, List.map_map]
      refine List.map_congr_left fun run hrun => ?_
      rw [keyRuns_eq_filter ((nodup_keyRuns_iff _).1 hnodup) run hrun]
      rfl
    have hcalls : calls.map StreamedToolCall.complete
        = (calls.map StreamedToolCall.index).map fun k =>
            gather ((stream.map ToolCallFragment.read).filter fun f => f.index = k) := by
      rw [List.map_map]
      refine List.map_congr_left fun call hcall => ?_
      have hown : (stream.map ToolCallFragment.read).filter (fun f => f.index = call.index)
          = call.fragments.map ToolCallFragment.read := by
        rw [List.filter_map, ← h.own call hcall]
        rfl
      rw [Function.comp_apply, hown, call.gather_fragments]
    rw [hruns, hcalls]
    exact hperm.map _

end Interleaves

/-! ## Two calls at once -/

/-- The fragment that names the call. -/
def openingFragment (index : Nat) (id name arguments : String) : ToolCallFragment :=
  ⟨index, some id, some "function", some name, some arguments⟩

/-- A fragment with a piece of the arguments. -/
def argumentsFragment (index : Nat) (arguments : String) : ToolCallFragment :=
  ⟨index, none, none, none, some arguments⟩

/-- A call in two fragments. -/
def weatherCall : StreamedToolCall where
  index := 0
  id := "call_1"
  name := "get_weather"
  first := openingFragment 0 "call_1" "get_weather" "\x7b"
  rest := [argumentsFragment 0 "\x7d"]
  index_lt := by decide
  id_ne := by decide
  name_ne := by decide
  first_id := rfl
  first_name := rfl
  first_index := rfl
  rest_index := by simp [argumentsFragment]
  rest_id := by simp [argumentsFragment]
  rest_name := by simp [argumentsFragment]

/-- A call in one fragment. -/
def searchCall : StreamedToolCall where
  index := 1
  id := "call_2"
  name := "search"
  first := openingFragment 1 "call_2" "search" "\x7b\x7d"
  rest := []
  index_lt := by decide
  id_ne := by decide
  name_ne := by decide
  first_id := rfl
  first_name := rfl
  first_index := rfl
  rest_index := by simp
  rest_id := by simp
  rest_name := by simp

/-- The second call comes after the first one has ended. -/
theorem weatherThenSearch : Interleaves [weatherCall, searchCall]
    (weatherCall.fragments ++ searchCall.fragments) where
  distinct := by decide
  own := by decide
  known := by decide

/-- The second call comes between the fragments of the first one. -/
theorem searchInWeather : Interleaves [weatherCall, searchCall]
    (weatherCall.first :: searchCall.first :: weatherCall.rest) where
  distinct := by decide
  own := by decide
  known := by decide

/-- One after the other both calls come back. -/
theorem assembled_perm_sequential :
    (assembled jsonText (weatherCall.fragments ++ searchCall.fragments)).Perm
        ([weatherCall, searchCall].map StreamedToolCall.complete)
      ↔ Contiguous ToolCallFragment.index (weatherCall.fragments ++ searchCall.fragments) :=
  assembled_perm_iff jsonText weatherThenSearch

/-- The first call comes back in two pieces. -/
theorem assembled_not_perm :
    ¬ ∀ (json : JsonCodec) (calls : List StreamedToolCall) (stream : List ToolCallFragment),
        Interleaves calls stream →
          (assembled json stream).Perm (calls.map StreamedToolCall.complete) := by
  intro h
  have hperm := h jsonText _ _ searchInWeather
  have hlength := hperm.length_eq
  rw [assembled_eq jsonText searchInWeather.index_lt] at hlength
  revert hlength
  decide

end Godwit

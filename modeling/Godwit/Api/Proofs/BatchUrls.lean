import Godwit.Lib.Uri
import Godwit.Api.Router

set_option autoImplicit false

/-! # The URLs of batches

The identifier of a batch is put into the URL as it is, and the URL is taken apart again. It stays one segment of
the path, with nothing after it but what the endpoint adds, exactly when it is plain (`batch_confined_iff`). -/

namespace Godwit

/-- The endpoints that have the identifier of a batch. -/
inductive BatchEndpoint where
  | get
  | delete
  | cancel
  | results

namespace BatchEndpoint

/-- The handler of the endpoint. -/
def handler : BatchEndpoint → String → String → App Fault Response
  | .get => getBatch
  | .delete => deleteBatch
  | .cancel => cancelBatch
  | .results => getBatchResults

/-- The method it is forwarded with. -/
def method : BatchEndpoint → String
  | .get => "GET"
  | .delete => "DELETE"
  | .cancel => "POST"
  | .results => "GET"

/-- What the endpoint adds to the path. -/
def suffix : BatchEndpoint → List (List Char)
  | .get => []
  | .delete => []
  | .cancel => ["cancel".toList]
  | .results => ["results".toList]

/-- The path it is forwarded to. -/
def path (endpoint : BatchEndpoint) (batchId : String) : String :=
  "batches/" ++ batchId ++ String.ofList (pathOf endpoint.suffix)

/-- Every request upstream is the one of the endpoint, under the base URL of the resolved model. -/
def Sends (endpoint : BatchEndpoint) (batchId : String) (o : GatewayOp) : Prop :=
  ∀ resolved method url body, o = .passthrough resolved method url body →
    method = endpoint.method ∧ url = upstreamUrl resolved.resolvedCredentials.baseUrl (endpoint.path batchId)
      ∧ body = none

theorem readReply_only {P : GatewayOp → Prop} (reply : UpstreamReply) : (readReply reply).Only P := by
  unfold readReply
  split
  · trivial
  · split_ifs
    · split <;> trivial
    · trivial

theorem queryBatch_only (endpoint : BatchEndpoint) (batchId model : String) :
    (queryBatch endpoint.method (endpoint.path batchId) model).Only (endpoint.Sends batchId) := by
  have hforward : (forwardOpenaiPassthrough endpoint.method (endpoint.path batchId) none model .chat).Only
      (endpoint.Sends batchId) := by
    refine .perform (fun resolved method url body h => by simp at h) fun answer => ?_
    cases answer with
    | error e => trivial
    | ok resolved =>
        refine .perform (fun resolved' method url body h => ?_) readReply_only
        obtain ⟨rfl, rfl, rfl, rfl⟩ := GatewayOp.passthrough.inj h
        exact ⟨rfl, rfl, rfl⟩
  exact .bind hforward fun _ => trivial

theorem handler_only (endpoint : BatchEndpoint) (batchId model : String) :
    (endpoint.handler batchId model).Only (endpoint.Sends batchId) := by
  have hquery := queryBatch_only endpoint batchId model
  cases endpoint with
  | get => rwa [show BatchEndpoint.get.path batchId = "batches/" ++ batchId from String.append_empty] at hquery
  | delete => rwa [show BatchEndpoint.delete.path batchId = "batches/" ++ batchId from String.append_empty]
      at hquery
  | cancel => exact hquery
  | results => exact hquery

theorem cleanSegments_suffix (endpoint : BatchEndpoint) : CleanSegments endpoint.suffix := by
  cases endpoint <;> simp [suffix, CleanSegments] <;> decide

end BatchEndpoint

/-- An absolute URL without query, fragment or dot segments. Its path is empty or starts with a slash. -/
structure BaseUrl where
  scheme : List Char
  authority : List Char
  segments : List (List Char)
  scheme_ne : scheme ≠ []
  schemeChars : scheme.all schemeChar = true
  authorityChars : authority.all authorityChar = true
  clean : CleanSegments segments

/-- The base URL as it is configured. -/
def BaseUrl.text (base : BaseUrl) : String :=
  String.ofList (base.scheme ++ ':' :: '/' :: '/' :: (base.authority ++ pathOf base.segments))

/-- The URL has the path of the base, `batches`, one segment that stands for the identifier and what the
    endpoint adds, and nothing after the path. -/
def Confined (base : BaseUrl) (endpoint : BatchEndpoint) (batchId : String) (uri : Uri) : Prop :=
  uri.query = none ∧ uri.fragment = none
    ∧ ∃ segment, '/' ∉ segment ∧ percentDecode segment = batchId.toList.flatMap String.utf8EncodeChar
      ∧ removeDots uri.path = pathOf (base.segments ++ "batches".toList :: segment :: endpoint.suffix)

theorem toList_upstreamUrl (base : BaseUrl) (endpoint : BatchEndpoint) (batchId : String) :
    (upstreamUrl base.text (endpoint.path batchId)).toList
      = base.scheme ++ ':' :: '/' :: '/' ::
        (base.authority ++ pathOf (base.segments ++ "batches".toList :: batchId.toList :: endpoint.suffix)) := by
  have hpath : (endpoint.path batchId).toList = "batches/".toList ++ batchId.toList ++ pathOf endpoint.suffix := by
    rw [BatchEndpoint.path, String.toList_append, String.toList_append, String.toList_ofList (l := pathOf _)]
  have hdrop : (endpoint.path batchId).toList.dropWhile (· = '/') = (endpoint.path batchId).toList := by
    rw [hpath]
    rfl
  rw [upstreamUrl, hdrop, String.toList_append, String.toList_append, String.toList_ofList, BaseUrl.text,
    String.toList_ofList, hpath, pathOf_append, pathOf_cons, pathOf_cons]
  simp

/-- The requests of the batch endpoints stay under their own path exactly when the identifier is plain: without
    `/`, `?`, `#` and escapes, and no dot segment. -/
theorem batch_confined_iff (base : BaseUrl) (endpoint : BatchEndpoint) (batchId : String) :
    (∀ model, (endpoint.handler batchId model).Only (endpoint.Sends batchId))
      ∧ (Confined base endpoint batchId (parseUri (upstreamUrl base.text (endpoint.path batchId)).toList)
        ↔ PlainSegment batchId.toList) := by
  refine ⟨endpoint.handler_only batchId, ?_⟩
  have hbatches : CleanSegments (base.segments ++ ["batches".toList]) := by
    intro segment hsegment
    rcases List.mem_append.1 hsegment with hsegment | hsegment
    · exact base.clean segment hsegment
    · rw [List.mem_singleton.1 hsegment]
      decide
  have hsplice := spliced_iff hbatches endpoint.cleanSegments_suffix batchId.toList
  simp only [List.append_assoc, List.singleton_append] at hsplice
  have hhead : (pathOf (base.segments ++ "batches".toList :: batchId.toList :: endpoint.suffix)).head?
      = some '/' := by
    cases base.segments <;> rfl
  obtain ⟨-, hpath, hrest⟩ := parseUri_absolute base.schemeChars base.scheme_ne base.authorityChars hhead
  rw [Confined, toList_upstreamUrl, hpath, ← hsplice]
  constructor
  · rintro ⟨-, -, hsegment⟩
    exact hsegment
  · intro hsegment
    -- a plain identifier leaves nothing for a query or a fragment
    have hall : (pathOf (base.segments ++ "batches".toList :: batchId.toList :: endpoint.suffix)).all pathChar
        = true := by
      have hclean := hbatches.splice endpoint.cleanSegments_suffix (hsplice.1 hsegment)
      have hchars := hclean.pathChars
      rwa [List.append_assoc, List.singleton_append] at hchars
    exact ⟨(hrest hall).1, (hrest hall).2, hsegment⟩

/-- The base URL of OpenAI. -/
def openaiBase : BaseUrl where
  scheme := "https".toList
  authority := "api.openai.com".toList
  segments := ["v1".toList]
  scheme_ne := by decide
  schemeChars := by decide
  authorityChars := by decide
  clean := by
    intro segment hsegment
    rw [List.mem_singleton.1 hsegment]
    decide

/-- The models of the account are asked for, not a batch. -/
theorem batch_not_confined : ¬ Confined openaiBase .get "../models"
    (parseUri (upstreamUrl openaiBase.text (BatchEndpoint.get.path "../models")).toList) := by
  rintro ⟨-, -, segment, -, hdecode, hpath⟩
  have hmodels : removeDots
      (parseUri (upstreamUrl openaiBase.text (BatchEndpoint.get.path "../models")).toList).path
      = "/v1/models".toList := by
    decide +kernel
  rw [hmodels] at hpath
  -- the path that is asked for is shorter than one with the segment `batches`
  have hlength := congrArg List.length hpath
  have hsegments : openaiBase.segments = ["v1".toList] := rfl
  simp [pathOf, hsegments, BatchEndpoint.suffix] at hlength

end Godwit

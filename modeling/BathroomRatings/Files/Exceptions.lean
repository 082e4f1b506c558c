import BathroomRatings.Files.Containment

/-!
# Exceptions of the file system

Every query about a path may throw.  What is thrown inside the `try` block becomes a 404;
the query before the block has nothing around it.
-/

set_option autoImplicit false

namespace BathroomRatings.Files

open BathroomRatings.Http BathroomRatings.Lib BathroomRatings.Lib.Interface

/-- The action comes to an end, and what it returns, unless it throws, meets the
condition. -/
def Settles {α : Type} (action : FileAction α) (condition : α → Prop) : Prop :=
  action.run.Ends fun result => ∀ value, result = .ok value → condition value

section Settles

variable {α β : Type} {action : FileAction α} {next : α → FileAction β}

theorem settles_pure {condition : α → Prop} {value : α} (met : condition value) :
    Settles (pure value) condition := by
  intro other same
  obtain rfl := Except.ok.inj same
  exact met

theorem Settles.bind {between : α → Prop} {condition : β → Prop}
    (first : Settles action between)
    (rest : ∀ value, between value → Settles (next value) condition) :
    Settles (action >>= next) condition := by
  refine ends_bind first ?_
  intro result met
  cases result with
  | ok value => exact rest value (met value rfl)
  | error failure =>
      intro value same
      cases same

theorem Settles.caught {condition : α → Prop} {caught : FilesystemError → α}
    (settles : Settles action condition) (handled : ∀ failure, condition (caught failure)) :
    (tryCatch action fun failure => pure (caught failure)).run.Ends fun result =>
      ∃ value, result = .ok value ∧ condition value := by
  refine ends_bind settles ?_
  intro result met
  cases result with
  | ok value => exact ⟨value, rfl, met value rfl⟩
  | error failure => exact ⟨caught failure, rfl, handled failure⟩

theorem settles_exists (path : Text) : Settles (fsExists path) fun _ => True :=
  ends_request fun _ _ _ => trivial

theorem settles_canonical (path : Text) : Settles (fsCanonical path) fun _ => True :=
  ends_request fun _ _ _ => trivial

theorem settles_isDirectory (path : Text) : Settles (fsIsDirectory path) fun _ => True :=
  ends_request fun _ _ _ => trivial

theorem settles_readFile (path : Text) : Settles (readFile path) fun _ => True :=
  fun _ _ _ => trivial

end Settles

def Known (response : Response) : Prop :=
  (∃ content contentType, response = ResponseBuilder.ok content contentType) ∨
    response = ResponseBuilder.defaultForbidden ∨ response = ResponseBuilder.defaultNotFound

structure MetByAnswers (library : PathLibrary) (condition : Response → Prop) : Prop where
  ok : ∀ content path, condition (ResponseBuilder.ok content (getContentType library path))
  forbidden : condition ResponseBuilder.defaultForbidden
  notFound : condition ResponseBuilder.defaultNotFound

theorem met_known (library : PathLibrary) : MetByAnswers library Known where
  ok content _ := Or.inl ⟨content, _, rfl⟩
  forbidden := Or.inr (Or.inl rfl)
  notFound := Or.inr (Or.inr rfl)

section Handler

variable (library : PathLibrary)

section Met

variable {library} {condition : Response → Prop} (met : MetByAnswers library condition)
include met

theorem sendFile_settles (requestedPath : Text) :
    Settles (sendFile library requestedPath) condition := by
  refine (settles_readFile requestedPath).bind ?_
  intro content _
  exact settles_pure (met.ok content _)

theorem sendIndex_settles (requestedPath : Text) :
    Settles (sendIndex library requestedPath) condition := by
  refine (settles_exists _).bind ?_
  intro found _
  cases found with
  | false => exact settles_pure met.notFound
  | true => exact sendFile_settles met _

theorem sendCanonical_settles (requestedPath : Text) :
    Settles (sendCanonical library requestedPath) condition := by
  refine (settles_exists _).bind ?_
  intro found _
  cases found with
  | false => exact settles_pure met.notFound
  | true =>
      refine (settles_isDirectory _).bind ?_
      intro directory _
      cases directory with
      | false => exact sendFile_settles met _
      | true => exact sendIndex_settles met _

theorem sendRequested_settles (baseDir requestedPath : Text) :
    Settles (sendRequested library baseDir requestedPath) condition := by
  refine (settles_canonical requestedPath).bind ?_
  intro canonical _
  refine (settles_canonical baseDir).bind ?_
  intro baseCanonical _
  split
  · exact settles_pure met.forbidden
  · exact sendCanonical_settles met canonical

end Met

variable (baseDir urlPrefix : Text) (request : Request)

def requestedPath : Text := library.append baseDir (relativePath urlPrefix request.url)

def handleFound (found : Bool) : FileAction Response :=
  if found then
    tryCatch (sendRequested library baseDir (requestedPath library baseDir urlPrefix request))
      fun _ => pure ResponseBuilder.defaultNotFound
  else pure ResponseBuilder.defaultNotFound

theorem handleFound_ends {condition : Response → Prop} (met : MetByAnswers library condition)
    (found : Bool) :
    (handleFound library baseDir urlPrefix request found).run.Ends fun result =>
      ∃ response, result = .ok response ∧ condition response := by
  cases found with
  | false => exact ⟨_, rfl, met.notFound⟩
  | true => exact (sendRequested_settles met baseDir _).caught fun _ => met.notFound

variable {σ : Type} (replies : Handler Query Query.Reply σ) (state : σ)

def ReturnsResponse : Prop :=
  ∃ response final, (handleRequest library baseDir urlPrefix request).run.run replies state =
    some (.ok response, final)

def firstReply : Except FilesystemError Bool :=
  (replies state (.exists (requestedPath library baseDir urlPrefix request))).1

theorem handleRequest_run :
    (handleRequest library baseDir urlPrefix request).run.run replies state =
      (ExceptT.bindCont (handleFound library baseDir urlPrefix request)
          (firstReply library baseDir urlPrefix request replies state)).run replies
        (replies state (.exists (requestedPath library baseDir urlPrefix request))).2 := rfl

variable {library baseDir urlPrefix request replies state}

theorem run_of_thrown
    (failed : firstReply library baseDir urlPrefix request replies state = .error .thrown) :
    ∃ final, (handleRequest library baseDir urlPrefix request).run.run replies state =
      some (.error .thrown, final) := by
  rw [handleRequest_run, failed]
  exact ⟨_, rfl⟩

theorem run_of_replied {condition : Response → Prop} (met : MetByAnswers library condition)
    {found : Bool}
    (replied : firstReply library baseDir urlPrefix request replies state = .ok found) :
    ∃ response final, (handleRequest library baseDir urlPrefix request).run.run replies state =
      some (.ok response, final) ∧ condition response := by
  rw [handleRequest_run, replied]
  obtain ⟨result, final, ran, response, rfl, holds⟩ :=
    ends_run (handleFound_ends library baseDir urlPrefix request met found) replies
      (replies state (.exists (requestedPath library baseDir urlPrefix request))).2
  exact ⟨response, final, ran, holds⟩

theorem not_returnsResponse
    (failed : firstReply library baseDir urlPrefix request replies state = .error .thrown) :
    ¬ ReturnsResponse library baseDir urlPrefix request replies state := by
  intro returns
  obtain ⟨response, final, returned⟩ := returns
  obtain ⟨other, escaped⟩ := run_of_thrown failed
  rw [escaped] at returned
  simp at returned

variable (library baseDir urlPrefix request replies state)

/-- Of all the queries only the first one can make the handler throw. -/
theorem returnsResponse_iff :
    ReturnsResponse library baseDir urlPrefix request replies state ↔
      firstReply library baseDir urlPrefix request replies state ≠ .error .thrown := by
  constructor
  · intro returns failed
    exact not_returnsResponse failed returns
  · intro spared
    cases replied : firstReply library baseDir urlPrefix request replies state with
    | error failure =>
        cases failure
        exact absurd replied spared
    | ok found =>
        obtain ⟨response, final, ran, -⟩ := run_of_replied (met_known library) replied
        exact ⟨response, final, ran⟩

end Handler

/-! ## Names that are too long -/

def nameMax : Nat := 255

def TooLong (path : Text) : Prop := ∃ name ∈ path.splitOn '/', nameMax < name.length

instance (path : Text) : Decidable (TooLong path) :=
  inferInstanceAs (Decidable (∃ name ∈ path.splitOn '/', nameMax < name.length))

def limitedReply (tree : DirectoryTree) : (query : Query) → query.Reply
  | .exists path => if TooLong path then .error .thrown else reply tree (.exists path)
  | .canonical path => if TooLong path then .error .thrown else reply tree (.canonical path)
  | .isDirectory path => if TooLong path then .error .thrown else reply tree (.isDirectory path)
  | .readFile path => if TooLong path then none else reply tree (.readFile path)

/-- A truthful file system that refuses names longer than it can store. -/
def limited : Handler Query Query.Reply DirectoryTree := fun tree query =>
  (limitedReply tree query, tree)

/-- A name in the url that is too long gets an exception out of the handler. -/
theorem escapes_of_tooLong {library : PathLibrary} {baseDir urlPrefix : Text} {request : Request}
    (tree : DirectoryTree) (long : TooLong (requestedPath library baseDir urlPrefix request)) :
    ¬ ReturnsResponse library baseDir urlPrefix request limited tree := by
  have failed : firstReply library baseDir urlPrefix request limited tree = .error .thrown :=
    if_pos long
  exact not_returnsResponse failed

def requestLong : Request :=
  { Request.fresh with
    isValid := true, method := "GET".toList,
    url := "/static/".toList ++ List.replicate 256 'a' }

theorem long_name_escapes :
    ¬ ReturnsResponse .plain "/srv/www".toList "/static".toList requestLong limited serverTree :=
  escapes_of_tooLong serverTree (by decide +kernel)

end BathroomRatings.Files

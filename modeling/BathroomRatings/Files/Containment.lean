import BathroomRatings.Files.Handler
import BathroomRatings.Lib.DirectoryTree

/-!
# Files inside the base directory

On a tree without links, which file a request reads, and when the comparison of path
texts keeps it inside the base directory.
-/

set_option autoImplicit false

namespace BathroomRatings.Files

open BathroomRatings.Http BathroomRatings.Lib BathroomRatings.Lib.DirectoryTree
open BathroomRatings.Lib.Interface BathroomRatings.Lib.Paths BathroomRatings.Lib.Strings

/-- A directory opens as well, and nothing can be read from it. -/
def contentOf : Entry → Text
  | .file content => content
  | .directory => []

def reply (tree : DirectoryTree) : (query : Query) → query.Reply
  | .exists path => .ok (tree.resolve path).isSome
  | .canonical path =>
      match tree.resolve path with
      | some place => .ok (render '/' place)
      | none => .error .thrown
  | .isDirectory path => .ok ((tree.resolve path).bind tree.node == some .directory)
  | .readFile path => ((tree.resolve path).bind tree.node).map contentOf

def truthful : Handler Query Query.Reply DirectoryTree := fun tree query =>
  (reply tree query, tree)

abbrev Answers {α : Type} (tree : DirectoryTree) (action : FileAction α)
    (result : Except FilesystemError α) (queries : List Query) : Prop :=
  Yields truthful tree action.run result queries tree

section Rules

variable {α β : Type} {tree : DirectoryTree} {action : FileAction α}
  {next : α → FileAction β} {queries more : List Query}

theorem answers_pure (result : α) :
    Answers tree (pure result : FileAction α) (.ok result) [] :=
  yields_pure truthful tree _

theorem Answers.bind {first : α} {result : Except FilesystemError β}
    (answers : Answers tree action (.ok first) queries)
    (rest : Answers tree (next first) result more) :
    Answers tree (action >>= next) result (queries ++ more) :=
  Yields.bind answers rest

theorem Answers.bind_error (answers : Answers tree action (.error .thrown) queries) :
    Answers tree (action >>= next) (.error .thrown) queries := by
  have rest : Answers tree (throw .thrown : FileAction β) (.error .thrown) [] :=
    yields_pure truthful tree _
  rw [← List.append_nil queries]
  exact Yields.bind answers rest

theorem Answers.catch_ok {caught : FilesystemError → FileAction α} {result : α}
    (answers : Answers tree action (.ok result) queries) :
    Answers tree (tryCatch action caught) (.ok result) queries := by
  rw [← List.append_nil queries]
  exact Yields.bind answers (answers_pure result)

theorem Answers.catch_error {caught : FilesystemError → FileAction α}
    {result : Except FilesystemError α}
    (answers : Answers tree action (.error .thrown) queries)
    (handled : Answers tree (caught .thrown) result more) :
    Answers tree (tryCatch action caught) result (queries ++ more) :=
  Yields.bind answers handled

variable (tree) in
theorem answers_exists (path : Text) :
    Answers tree (fsExists path) (.ok (tree.resolve path).isSome) [.exists path] :=
  yields_request truthful tree (Query.exists path)

theorem answers_canonical {path : Text} {place : List Text}
    (led : tree.resolve path = some place) :
    Answers tree (fsCanonical path) (.ok (render '/' place)) [.canonical path] := by
  have asked := yields_request truthful tree (Query.canonical path)
  simp only [truthful, reply, led] at asked
  exact asked

theorem answers_canonical_error {path : Text} (led : tree.resolve path = none) :
    Answers tree (fsCanonical path) (.error .thrown) [.canonical path] := by
  have asked := yields_request truthful tree (Query.canonical path)
  simp only [truthful, reply, led] at asked
  exact asked

theorem answers_isDirectory {path : Text} {place : List Text}
    (led : tree.resolve path = some place) :
    Answers tree (fsIsDirectory path) (.ok (tree.node place == some .directory))
      [.isDirectory path] := by
  have asked := yields_request truthful tree (Query.isDirectory path)
  simp only [truthful, reply, led, Option.bind_some] at asked
  exact asked

theorem answers_readFile {path : Text} {place : List Text} {entry : Entry}
    (led : tree.resolve path = some place) (present : tree.node place = some entry) :
    Answers tree (readFile path) (.ok (contentOf entry)) [.readFile path] := by
  have asked : Answers tree (readFile path)
      (.ok ((reply tree (Query.readFile path)).getD [])) [.readFile path] := ⟨rfl, rfl⟩
  simp only [reply, led, Option.bind_some, present, Option.map_some, Option.getD_some] at asked
  exact asked

end Rules

def filesRead (queries : List Query) : List Text :=
  queries.filterMap fun query =>
    match query with
    | .readFile path => some path
    | _ => none

def target (tree : DirectoryTree) (place : List Text) : Option (List Text) :=
  if tree.node place = some .directory then
    if (tree.node (place ++ [indexHtml])).isSome then some (place ++ [indexHtml]) else none
  else some place

variable {tree : DirectoryTree} (library : PathLibrary)

theorem append_index {place : List Text} (names : Names '/' place) :
    library.append (render '/' place) indexHtml = render '/' (place ++ [indexHtml]) := by
  rw [library.append_relative _ _ (by decide) (by decide)]
  by_cases top : place = []
  · subst top
    rfl
  · rw [if_neg, render_append '/' place top]
    rintro (empty | ends)
    · exact absurd empty (by simp [render])
    · exact top ((render_getLast? '/' names).mp ends)

theorem resolve_place {place : List Text} (present : tree.node place ≠ none) :
    tree.resolve (render '/' place) = some place := by
  rw [resolve_render place (isName_of_mem present),
    if_pos (Option.isSome_iff_ne_none.mpr present)]

theorem resolve_index {place : List Text} (present : tree.node place ≠ none) :
    tree.resolve (render '/' (place ++ [indexHtml])) =
      if (tree.node (place ++ [indexHtml])).isSome then some (place ++ [indexHtml]) else none := by
  apply resolve_render
  intro name member
  rcases List.mem_append.mp member with above | last
  · exact isName_of_mem present name above
  · rw [List.mem_singleton.mp last]
    decide

/-- The path of a place of the tree, or of the index that it may have. -/
def IsPlace (tree : DirectoryTree) (path : Text) : Prop :=
  ∃ place, tree.node place ≠ none ∧
    (path = render '/' place ∨ path = render '/' (place ++ [indexHtml]))

/-- What is sent for a target, and which paths are read for it. -/
def sent (tree : DirectoryTree) : Option (List Text) → Response
  | some file =>
      ResponseBuilder.ok (((tree.node file).map contentOf).getD [])
        (getContentType library (render '/' file))
  | none => ResponseBuilder.defaultNotFound

def readFor : Option (List Text) → List Text
  | some file => [render '/' file]
  | none => []

theorem sendFile_answers {file : List Text} (present : tree.node file ≠ none) :
    Answers tree (sendFile library (render '/' file)) (.ok (sent library tree (some file)))
      [.readFile (render '/' file)] := by
  obtain ⟨entry, found⟩ := Option.ne_none_iff_exists'.mp present
  have read := answers_readFile (resolve_place present) found
  simp only [sent, found, Option.map_some, Option.getD_some]
  exact read.bind (answers_pure _)

theorem answers_exists_place {place : List Text} (present : tree.node place ≠ none) :
    Answers tree (fsExists (render '/' place)) (.ok true) [.exists (render '/' place)] := by
  have asked := answers_exists tree (render '/' place)
  rw [resolve_place present] at asked
  exact asked

theorem sendIndex_answers {place : List Text} (directory : tree.node place = some .directory) :
    ∃ queries, Answers tree (sendIndex library (render '/' place))
        (.ok (sent library tree (target tree place))) queries ∧
      filesRead queries = readFor (target tree place) ∧
      ∀ query ∈ queries, IsPlace tree query.path := by
  have present : tree.node place ≠ none := by
    rw [directory]
    simp
  have index : IsPlace tree (render '/' (place ++ [indexHtml])) := ⟨place, present, Or.inr rfl⟩
  have asked := answers_exists tree (render '/' (place ++ [indexHtml]))
  rw [resolve_index present] at asked
  unfold sendIndex target
  rw [append_index library (names_of_present present), if_pos directory]
  by_cases indexed : (tree.node (place ++ [indexHtml])).isSome
  · rw [if_pos indexed] at asked ⊢
    have file := sendFile_answers library (Option.isSome_iff_ne_none.mp indexed)
    exact ⟨_, asked.bind file, rfl, by simp [Query.path, index]⟩
  · rw [if_neg indexed] at asked ⊢
    exact ⟨_, asked.bind (answers_pure _), rfl, by simp [Query.path, index]⟩

theorem sendCanonical_answers {place : List Text} (present : tree.node place ≠ none) :
    ∃ queries, Answers tree (sendCanonical library (render '/' place))
        (.ok (sent library tree (target tree place))) queries ∧
      filesRead queries = readFor (target tree place) ∧
      ∀ query ∈ queries, IsPlace tree query.path := by
  have here : IsPlace tree (render '/' place) := ⟨place, present, Or.inl rfl⟩
  have found := answers_exists_place present
  have kind := answers_isDirectory (resolve_place present)
  by_cases directory : tree.node place = some .directory
  · obtain ⟨queries, answers, read, asked⟩ := sendIndex_answers library directory
    simp only [directory, beq_self_eq_true] at kind
    refine ⟨_, found.bind (kind.bind answers), read, ?_⟩
    simpa [Query.path, here] using asked
  · have other : (tree.node place == some .directory) = false := by simpa using directory
    rw [other] at kind
    unfold target
    rw [if_neg directory]
    exact ⟨_, found.bind (kind.bind (sendFile_answers library present)), rfl,
      by simp [Query.path, here]⟩

/-- What a request is answered with, by the places that the requested path and the base
directory lead to. -/
def answerAt (tree : DirectoryTree) : Option (List Text) → Option (List Text) → Response
  | some place, some base =>
      if render '/' base <+: render '/' place then sent library tree (target tree place)
      else ResponseBuilder.defaultForbidden
  | _, _ => ResponseBuilder.defaultNotFound

def servedAt (tree : DirectoryTree) : Option (List Text) → Option (List Text) →
    Option (List Text)
  | some place, some base =>
      if render '/' base <+: render '/' place then target tree place else none
  | _, _ => none

theorem checked_answers {place : List Text} (base : List Text)
    (present : tree.node place ≠ none) :
    ∃ queries, Answers tree
        (if find (render '/' base) (render '/' place) ≠ some 0 then
          pure ResponseBuilder.defaultForbidden
        else sendCanonical library (render '/' place))
        (.ok (answerAt library tree (some place) (some base))) queries ∧
      filesRead queries = readFor (servedAt tree (some place) (some base)) ∧
      ∀ query ∈ queries, IsPlace tree query.path := by
  simp only [answerAt, servedAt, ne_eq, find_eq_zero_iff]
  by_cases inside : render '/' base <+: render '/' place
  · rw [if_neg (not_not_intro inside), if_pos inside, if_pos inside]
    exact sendCanonical_answers library present
  · rw [if_pos inside, if_neg inside, if_neg inside]
    exact ⟨[], answers_pure _, rfl, by simp⟩

theorem sendRequested_answers {baseDir requestedPath : Text} {place base : List Text}
    (led : tree.resolve requestedPath = some place) (root : tree.resolve baseDir = some base) :
    ∃ queries, Answers tree (sendRequested library baseDir requestedPath)
        (.ok (answerAt library tree (some place) (some base))) queries ∧
      filesRead queries = readFor (servedAt tree (some place) (some base)) ∧
      ∀ query ∈ queries, query.path = requestedPath ∨ query.path = baseDir ∨
        IsPlace tree query.path := by
  obtain ⟨queries, answers, read, asked⟩ :=
    checked_answers library base (resolve_present led)
  refine ⟨_, (answers_canonical led).bind ((answers_canonical root).bind answers), read, ?_⟩
  intro query member
  simp only [List.singleton_append, List.mem_cons] at member
  rcases member with rfl | rfl | later
  · exact Or.inl rfl
  · exact Or.inr (Or.inl rfl)
  · exact Or.inr (Or.inr (asked query later))

section Handle

variable (tree) (baseDir urlPrefix : Text) (request : Request)

def requestedPlace : Option (List Text) :=
  tree.resolve (library.append baseDir (relativePath urlPrefix request.url))

theorem handleRequest_answers :
    ∃ queries, Answers tree (handleRequest library baseDir urlPrefix request)
        (.ok (answerAt library tree (requestedPlace tree library baseDir urlPrefix request)
          (tree.resolve baseDir))) queries ∧
      filesRead queries = readFor (servedAt tree
        (requestedPlace tree library baseDir urlPrefix request) (tree.resolve baseDir)) ∧
      ∀ query ∈ queries,
        query.path = library.append baseDir (relativePath urlPrefix request.url) ∨
          query.path = baseDir ∨ IsPlace tree query.path := by
  have asked := answers_exists tree
    (library.append baseDir (relativePath urlPrefix request.url))
  unfold requestedPlace
  cases led : tree.resolve (library.append baseDir (relativePath urlPrefix request.url)) with
  | none =>
      rw [led] at asked
      exact ⟨_, asked.bind (answers_pure _), rfl, by simp [Query.path]⟩
  | some place =>
      rw [led] at asked
      cases root : tree.resolve baseDir with
      | none =>
          have thrown : Answers tree (sendRequested library baseDir
              (library.append baseDir (relativePath urlPrefix request.url)))
              (.error .thrown) _ :=
            (answers_canonical led).bind (answers_canonical_error root).bind_error
          exact ⟨_, asked.bind (thrown.catch_error (answers_pure _)), rfl, by simp [Query.path]⟩
      | some base =>
          obtain ⟨queries, answers, read, further⟩ := sendRequested_answers library led root
          refine ⟨_, asked.bind answers.catch_ok, read, ?_⟩
          simpa [Query.path] using further

end Handle

/-! ## Containment -/

theorem present_of_target {place file : List Text} (present : tree.node place ≠ none)
    (targeted : target tree place = some file) : tree.node file ≠ none := by
  unfold target at targeted
  split at targeted
  · split at targeted
    · rename_i indexed
      rw [← Option.some.inj targeted]
      exact Option.isSome_iff_ne_none.mp indexed
    · exact absurd targeted (by simp)
  · rw [← Option.some.inj targeted]
    exact present

theorem servedAt_eq_some_iff {place base : Option (List Text)} {file : List Text} :
    servedAt tree place base = some file ↔
      ∃ p b, place = some p ∧ base = some b ∧ render '/' b <+: render '/' p ∧
        target tree p = some file := by
  cases place with
  | none => simp [servedAt]
  | some p =>
      cases base with
      | none => simp [servedAt]
      | some b => simp [servedAt]

theorem answerAt_of_served {place base : Option (List Text)} {file : List Text}
    (served : servedAt tree place base = some file) :
    answerAt library tree place base = sent library tree (some file) := by
  obtain ⟨p, b, rfl, rfl, inside, targeted⟩ := servedAt_eq_some_iff.mp served
  simp only [answerAt, targeted]
  exact if_pos inside

theorem answerAt_of_unserved {place base : Option (List Text)}
    (unserved : servedAt tree place base = none) :
    (answerAt library tree place base).statusCode ≠ "200 OK".toList := by
  have notFound : ResponseBuilder.defaultNotFound.statusCode ≠ "200 OK".toList := by decide
  cases place with
  | none => exact notFound
  | some p =>
      cases base with
      | none => exact notFound
      | some b =>
          simp only [answerAt, servedAt] at unserved ⊢
          split
          · rename_i inside
            rw [if_pos inside] at unserved
            rw [unserved]
            exact notFound
          · decide

section Inside

variable (tree) (baseDir urlPrefix : Text) (request : Request)

/-- If the answer is 200, then it returns the one file read, and this lies inside the
base directory. -/
def ServesInside : Prop :=
  ∀ response queries,
    Answers tree (handleRequest library baseDir urlPrefix request) (.ok response) queries →
    response.statusCode = "200 OK".toList →
      ∃ path file base, filesRead queries = [path] ∧ tree.resolve path = some file ∧
        response.body = ((tree.node file).map contentOf).getD [] ∧
        tree.resolve baseDir = some base ∧ base <+: file

/-- The url leads to something to serve beside the base directory: at or below a
sibling whose name only begins with that of the base directory. -/
def LeadsBeside : Prop :=
  ∃ place base, requestedPlace tree library baseDir urlPrefix request = some place ∧
    tree.resolve baseDir = some base ∧ Beside base place ∧ (target tree place).isSome

theorem servesInside_iff_served :
    ServesInside tree library baseDir urlPrefix request ↔
      ∀ file, servedAt tree (requestedPlace tree library baseDir urlPrefix request)
          (tree.resolve baseDir) = some file →
        ∃ base, tree.resolve baseDir = some base ∧ base <+: file := by
  obtain ⟨queries, answers, read, -⟩ :=
    handleRequest_answers tree library baseDir urlPrefix request
  constructor
  · intro inside file served
    rw [answerAt_of_served library served] at answers
    obtain ⟨path, other, base, one, led, -, root, within⟩ := inside _ _ answers rfl
    rw [read, served] at one
    obtain ⟨place, b, requested, -, -, targeted⟩ := servedAt_eq_some_iff.mp served
    have present := present_of_target (resolve_present requested) targeted
    have same : path = render '/' file := (List.cons.inj one).1.symm
    rw [same, resolve_place present] at led
    rw [← Option.some.inj led] at within
    exact ⟨base, root, within⟩
  · intro inside response others again ok
    obtain ⟨sameResult, sameQueries⟩ := answers.unique again
    obtain rfl := Except.ok.inj sameResult
    subst sameQueries
    cases served : servedAt tree (requestedPlace tree library baseDir urlPrefix request)
        (tree.resolve baseDir) with
    | none => exact absurd ok (answerAt_of_unserved library served)
    | some file =>
        obtain ⟨base, root, within⟩ := inside file served
        obtain ⟨place, b, requested, -, -, targeted⟩ := servedAt_eq_some_iff.mp served
        have present := present_of_target (resolve_present requested) targeted
        rw [served] at read
        refine ⟨render '/' file, file, base, read, resolve_place present, ?_, root, within⟩
        rw [answerAt_of_served library served]
        rfl

theorem target_below {place file : List Text} (targeted : target tree place = some file) :
    ∃ more, file = place ++ more := by
  unfold target at targeted
  split at targeted
  · split at targeted
    · exact ⟨_, (Option.some.inj targeted).symm⟩
    · exact absurd targeted (by simp)
  · exact ⟨[], by rw [List.append_nil, Option.some.inj targeted]⟩

theorem not_servesInside_of_beside
    (leads : LeadsBeside tree library baseDir urlPrefix request) :
    ¬ ServesInside tree library baseDir urlPrefix request := by
  rw [servesInside_iff_served]
  intro inside
  obtain ⟨place, base, requested, root, beside, servable⟩ := leads
  obtain ⟨file, targeted⟩ := Option.isSome_iff_exists.mp servable
  have compared : render '/' base <+: render '/' place :=
    (render_prefix_iff (names_of_present (resolve_present root))
      (names_of_present (resolve_present requested))).mpr (Or.inr beside)
  obtain ⟨other, root', within⟩ := inside file
    (servedAt_eq_some_iff.mpr ⟨place, base, requested, root, compared, targeted⟩)
  rw [root] at root'
  obtain ⟨more, rfl⟩ := target_below tree targeted
  rw [← Option.some.inj root'] at within
  exact not_prefix_of_beside beside more within

theorem servesInside_of_not_beside
    (avoids : ¬ LeadsBeside tree library baseDir urlPrefix request) :
    ServesInside tree library baseDir urlPrefix request := by
  rw [servesInside_iff_served]
  intro file served
  obtain ⟨place, base, requested, root, compared, targeted⟩ := servedAt_eq_some_iff.mp served
  obtain ⟨more, rfl⟩ := target_below tree targeted
  rcases (render_prefix_iff (names_of_present (resolve_present root))
    (names_of_present (resolve_present requested))).mp compared with inside | beside
  · exact ⟨base, root, inside.trans (List.prefix_append _ _)⟩
  · exact absurd ⟨place, base, requested, root, beside, by rw [targeted]; rfl⟩ avoids

/-- The comparison of texts is good enough unless the url leads beside the base
directory. -/
theorem servesInside_iff :
    ServesInside tree library baseDir urlPrefix request ↔
      ¬ LeadsBeside tree library baseDir urlPrefix request := by
  constructor
  · intro inside leads
    exact not_servesInside_of_beside tree library baseDir urlPrefix request leads inside
  · exact servesInside_of_not_beside tree library baseDir urlPrefix request

end Inside

def serverTree : DirectoryTree :=
  .ofEntries
    [([], .directory), (["srv".toList], .directory),
      (["srv".toList, "www".toList], .directory),
      (["srv".toList, "www-private".toList], .directory),
      (["srv".toList, "www-private".toList, "key".toList], .file "secret".toList)]
    (by decide) (by decide)

def requestPrivate : Request :=
  { Request.fresh with
    isValid := true, method := "GET".toList, url := "/static/../www-private/key".toList }

theorem private_served :
    ¬ ServesInside serverTree .plain "/srv/www".toList "/static".toList requestPrivate := by
  apply not_servesInside_of_beside
  refine ⟨["srv".toList, "www-private".toList, "key".toList], ["srv".toList, "www".toList],
    by decide, by decide, ?_, by decide⟩
  exact ⟨["srv".toList], "www".toList, "-private".toList, ["key".toList], rfl, rfl, by decide⟩

end BathroomRatings.Files

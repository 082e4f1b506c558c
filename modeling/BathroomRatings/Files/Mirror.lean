import BathroomRatings.Files.Exceptions

/-!
# The files of the base directory

What the file handler answers for every url behind its prefix, on a tree without links
whose file system tells the truth about every path that it takes: the urls made of names
mirror the base directory, and every other url walks from there.
-/

set_option autoImplicit false

namespace BathroomRatings.Files

open BathroomRatings.Http BathroomRatings.Lib BathroomRatings.Lib.DirectoryTree
open BathroomRatings.Lib.Interface BathroomRatings.Lib.Paths BathroomRatings.Lib.Strings

/-- A file, or the index of a directory. -/
def page (tree : DirectoryTree) (library : PathLibrary) (place : List Text) : Response :=
  match tree.node place with
  | none => ResponseBuilder.defaultNotFound
  | some (.file content) =>
      ResponseBuilder.ok content (getContentType library (render '/' place))
  | some .directory =>
      match tree.node (place ++ [indexHtml]) with
      | none => ResponseBuilder.defaultNotFound
      | some entry =>
          ResponseBuilder.ok (contentOf entry)
            (getContentType library (render '/' (place ++ [indexHtml])))

/-- The path in the base directory that is asked for by what the url has behind the
prefix. -/
def requested (rest : Text) : Text :=
  let within := if rest.head? = some '/' then rest.drop 1 else rest
  if within = [] then ['.'] else within

def steps (rest : Text) : List Text := (requested rest).splitOn '/'

/-! ## Paths that the file system takes -/

/-- The length from which on a path is too long, with the byte at its end. -/
def pathMax : Nat := 4096

/-- The byte zero ends the path of a system call. -/
structure Ordinary (path : Text) : Prop where
  zeroFree : '\x00' ∉ path
  short : path.length < pathMax
  names : ¬ TooLong path

variable (tree : DirectoryTree)

/-- Of other paths anything may be said, or thrown. -/
def TellsTruth {σ : Type} (replies : Handler Query Query.Reply σ) : Prop :=
  ∀ query, Ordinary query.path → ∀ state, (replies state query).1 = reply tree query

/-- The tree is not too deep for its paths. -/
def Fits : Prop := ∀ path, IsPlace tree path → Ordinary path

variable {σ : Type} (replies : Handler Query Query.Reply σ)
variable (library : PathLibrary) (baseDir urlPrefix : Text)

/-- In whatever state the file system is, the response is returned and nothing thrown. -/
def AnswersWith (request : Request) (response : Response) : Prop :=
  ∀ state, ∃ final, (handleRequest library baseDir urlPrefix request).run.run replies state =
    some (.ok response, final)

/-- What is asked for is a relative path, and what this leads to from the base directory
decides. -/
structure Walks (base : List Text) (request : Request) (rest : Text) : Prop where
  nowhere : tree.walk base (steps rest) = none →
    AnswersWith replies library baseDir urlPrefix request ResponseBuilder.defaultNotFound
  inside : ∀ names, tree.walk base (steps rest) = some (base ++ names) →
    AnswersWith replies library baseDir urlPrefix request (page tree library (base ++ names))
  beside : ∀ place, tree.walk base (steps rest) = some place → Beside base place →
    AnswersWith replies library baseDir urlPrefix request (page tree library place)
  outside : ∀ place, tree.walk base (steps rest) = some place →
    ¬ base <+: place → ¬ Beside base place →
    AnswersWith replies library baseDir urlPrefix request ResponseBuilder.defaultForbidden

def Asks (request : Request) : Prop :=
  Ordinary (requestedPath library baseDir urlPrefix request)

structure Mirrors (base : List Text) : Prop where
  plain : ∀ (request : Request) names slash, (∀ name ∈ names, IsName name) →
    slash = [] ∨ slash = ['/'] →
    request.url = urlPrefix ++ slash ++ [('/' : Char)].intercalate names →
    Asks library baseDir urlPrefix request →
      AnswersWith replies library baseDir urlPrefix request (page tree library (base ++ names))
  any : ∀ (request : Request) rest, request.url = urlPrefix ++ rest →
    (requested rest).head? ≠ some '/' → Asks library baseDir urlPrefix request →
      Walks tree replies library baseDir urlPrefix base request rest

theorem requested_ne_nil (rest : Text) : requested rest ≠ [] := by
  unfold requested
  dsimp only
  generalize (if rest.head? = some '/' then rest.drop 1 else rest) = within
  by_cases nothing : within = []
  · simp [nothing]
  · simp [nothing]

theorem relativePath_append (rest : Text) :
    relativePath urlPrefix (urlPrefix ++ rest) = requested rest := by
  have begins : find urlPrefix (urlPrefix ++ rest) = some 0 :=
    (find_eq_zero_iff _ _).mpr (List.prefix_append _ _)
  unfold relativePath requested
  simp only [begins, List.drop_left, and_true]
  by_cases located : urlPrefix = []
  · subst located
    simp
  · by_cases ends : rest = []
    · subst ends
      simp [located]
    · simp [located, ends]

theorem head_of_names {name : Text} (isName : IsName name) (more : List Text) :
    ∃ c rest, [('/' : Char)].intercalate (name :: more) = c :: rest ∧ c ≠ '/' := by
  obtain ⟨nonempty, free, -⟩ := isName
  obtain ⟨c, rest, rfl⟩ := List.exists_cons_of_ne_nil nonempty
  have other : c ≠ '/' := by
    rintro rfl
    exact free List.mem_cons_self
  cases more with
  | nil => exact ⟨c, rest, by simp, other⟩
  | cons next more => exact ⟨c, _, by simp; rfl, other⟩

section Names

variable {names : List Text} {slash : Text} (all : ∀ name ∈ names, IsName name)
variable (slashes : slash = [] ∨ slash = ['/'])
include all slashes

/-- The base directory itself is asked for as a dot. -/
theorem requested_names :
    requested (slash ++ [('/' : Char)].intercalate names) =
      if names = [] then ['.'] else [('/' : Char)].intercalate names := by
  cases names with
  | nil =>
      rcases slashes with rfl | rfl
      · rfl
      · rfl
  | cons name more =>
      obtain ⟨c, rest, text, other⟩ := head_of_names (all name List.mem_cons_self) more
      rw [if_neg (by simp), text]
      rcases slashes with rfl | rfl
      · simp [requested, other]
      · simp [requested]

theorem requested_names_relative :
    (requested (slash ++ [('/' : Char)].intercalate names)).head? ≠ some '/' := by
  rw [requested_names all slashes]
  cases names with
  | nil => decide
  | cons name more =>
      obtain ⟨c, rest, text, other⟩ := head_of_names (all name List.mem_cons_self) more
      rw [if_neg (by simp), text]
      simpa using other

theorem walk_names {tree : DirectoryTree} {base : List Text}
    (directory : tree.node base = some .directory) :
    tree.walk base (steps (slash ++ [('/' : Char)].intercalate names)) =
      if (tree.node (base ++ names)).isSome then some (base ++ names) else none := by
  unfold steps
  rw [requested_names all slashes]
  by_cases top : names = []
  · subst top
    rw [if_pos rfl, List.splitOn_eq_singleton (by decide), walk_stay base (Or.inr rfl),
      List.append_nil, if_pos directory, directory]
    rfl
  · rw [if_neg top, List.splitOn_intercalate '/' (fun name member => (all name member).2.1) top,
      walk_of_names base names all]

end Names

/-! ## What is answered -/

theorem sent_page {tree : DirectoryTree} {place : List Text} (present : tree.node place ≠ none) :
    sent library tree (target tree place) = page tree library place := by
  obtain ⟨entry, found⟩ := Option.ne_none_iff_exists'.mp present
  unfold target page
  cases entry with
  | file content => simp [found, sent, contentOf]
  | directory =>
      rw [if_pos found, found]
      cases indexed : tree.node (place ++ [indexHtml]) with
      | none => simp [sent]
      | some index => simp [sent, indexed]

section Walk

variable {tree replies baseDir urlPrefix} {base : List Text}
variable (truth : TellsTruth tree replies) (fits : Fits tree) (ordinary : Ordinary baseDir)
variable (root : tree.resolve baseDir = some base)
variable {request : Request} {rest : Text} (asked : request.url = urlPrefix ++ rest)
variable (relative : (requested rest).head? ≠ some '/')
variable (asks : Asks library baseDir urlPrefix request)
include truth fits ordinary root asked relative asks

/-- Every path that the handler asks about is one that the file system takes. -/
theorem answers_walk :
    AnswersWith replies library baseDir urlPrefix request
      (answerAt library tree (tree.walk base (steps rest)) (some base)) := by
  obtain ⟨queries, answers, -, paths⟩ :=
    handleRequest_answers tree library baseDir urlPrefix request
  have led : requestedPlace tree library baseDir urlPrefix request =
      tree.walk base (steps rest) := by
    unfold requestedPlace
    rw [asked, relativePath_append,
      library.append_relative _ _ (requested_ne_nil rest) relative]
    exact resolve_below (requested rest) root
  rw [led, root] at answers
  intro state
  refine run_of_same_replies truthful tree (fun _ => rfl) ?_ answers.run state
  intro query member spot
  rw [answers.trace] at member
  apply truth query
  rcases paths query member with path | path | place
  · rw [path]
    exact asks
  · rw [path]
    exact ordinary
  · exact fits _ place

theorem walks : Walks tree replies library baseDir urlPrefix base request rest := by
  have answers := answers_walk library truth fits ordinary root asked relative asks
  have compare : ∀ {place}, tree.walk base (steps rest) = some place →
      (render '/' base <+: render '/' place ↔ base <+: place ∨ Beside base place) :=
    fun led => render_prefix_iff (names_of_present (resolve_present root))
      (names_of_present (walk_present led))
  have reached : ∀ {place}, tree.walk base (steps rest) = some place →
      base <+: place ∨ Beside base place →
      AnswersWith replies library baseDir urlPrefix request (page tree library place) := by
    intro place led close
    rw [led] at answers
    simp only [answerAt] at answers
    rw [if_pos ((compare led).mpr close), sent_page library (walk_present led)] at answers
    exact answers
  constructor
  · intro led
    rw [led] at answers
    exact answers
  · intro names led
    exact reached led (Or.inl (List.prefix_append _ _))
  · intro place led beside
    exact reached led (Or.inr beside)
  · intro place led outside apart
    rw [led] at answers
    simp only [answerAt] at answers
    rw [if_neg] at answers
    · exact answers
    · intro compared
      rcases (compare led).mp compared with inside | beside
      · exact outside inside
      · exact apart beside

end Walk

/-- A url made of names is answered by what is at that place below the base directory;
every other url that asks for a relative path, by what the walk from there leads to. -/
theorem mirrors (truth : TellsTruth tree replies) (fits : Fits tree) (ordinary : Ordinary baseDir)
    {base : List Text} (root : tree.resolve baseDir = some base)
    (directory : tree.node base = some .directory) :
    Mirrors tree replies library baseDir urlPrefix base := by
  constructor
  · intro request names slash all slashes asked asks
    rw [List.append_assoc] at asked
    have walked := walks library truth fits ordinary root asked
      (requested_names_relative all slashes) asks
    have led := walk_names all slashes directory
    by_cases present : (tree.node (base ++ names)).isSome
    · rw [if_pos present] at led
      exact walked.inside names led
    · rw [if_neg present] at led
      have missing : page tree library (base ++ names) = ResponseBuilder.defaultNotFound := by
        unfold page
        rw [Option.not_isSome_iff_eq_none.mp present]
      rw [missing]
      exact walked.nowhere led
  · intro request rest asked relative asks
    exact walks library truth fits ordinary root asked relative asks

def wwwEntries : List (List Text × Entry) :=
  [([], .directory), (["www".toList], .directory),
    (["www".toList, indexHtml], .file "map".toList),
    (["www".toList, "js".toList], .directory),
    (["www".toList, "js".toList, "app.js".toList], .file "start".toList)]

def wwwTree : DirectoryTree := .ofEntries wwwEntries (by decide) (by decide)

instance (path : Text) : Decidable (Ordinary path) :=
  decidable_of_iff ('\x00' ∉ path ∧ path.length < pathMax ∧ ¬ TooLong path)
    ⟨fun ⟨zeroFree, short, names⟩ => ⟨zeroFree, short, names⟩,
      fun ordinary => ⟨ordinary.zeroFree, ordinary.short, ordinary.names⟩⟩

theorem wwwTree_fits : Fits wwwTree := by
  have all : ∀ place ∈ wwwEntries.map (·.1), Ordinary (render '/' place) ∧
      Ordinary (render '/' (place ++ [indexHtml])) := by
    decide +kernel
  rintro path ⟨place, present, rfl | rfl⟩
  · exact (all place (mem_of_lookup present)).1
  · exact (all place (mem_of_lookup present)).2

def wwwReplies : Handler Query Query.Reply Unit := fun _ query => (limitedReply wwwTree query, ())

theorem wwwReplies_truth : TellsTruth wwwTree wwwReplies := by
  intro query ordinary _
  cases query with
  | «exists» path => exact if_neg ordinary.names
  | canonical path => exact if_neg ordinary.names
  | isDirectory path => exact if_neg ordinary.names
  | readFile path => exact if_neg ordinary.names

theorem mirrors_www :
    Mirrors wwwTree wwwReplies .plain "/www/".toList "/".toList ["www".toList] :=
  mirrors wwwTree wwwReplies .plain "/www/".toList "/".toList wwwReplies_truth wwwTree_fits
    (by decide +kernel) (by decide) (by decide)

/-- Dots and doubled slashes lead to the same page. -/
example : wwwTree.walk ["www".toList] (steps "js//./../js/app.js".toList) =
    some ["www".toList, "js".toList, "app.js".toList] := by decide

end BathroomRatings.Files

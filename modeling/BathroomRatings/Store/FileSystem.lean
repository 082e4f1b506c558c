import BathroomRatings.Lib.Interface
import BathroomRatings.Lib.Sorting
import BathroomRatings.Lib.Strings
import BathroomRatings.Lib.Table

/-!
# The file system under a store

The file-system calls the persistent store makes, and what they do on a table of
files and directories.  A path is the list of its elements, the root directory
being the element `/`; a redundant separator leaves no element.  A file keeps its
path while it is open: the store removes files in calls of their own.
-/

set_option autoImplicit false

namespace BathroomRatings.Store

open BathroomRatings.Lib BathroomRatings.Lib.Interface BathroomRatings.Lib.Sorting
open BathroomRatings.Lib.Strings

abbrev Path := List Text

def elements (text : Text) : Path :=
  if text.head? = some '/' then ['/'] :: pieces '/' text else pieces '/' text

/-- `operator/`: an absolute right operand replaces the left one. -/
def Path.slash (path : Path) (text : Text) : Path :=
  if text.head? = some '/' then elements text else path ++ elements text

inductive Node where
  | file (content : Text)
  | directory
  deriving DecidableEq, Repr

def Node.isRegularFile : Node → Bool
  | .file _ => true
  | .directory => false

abbrev FileSystem := Table Path Node

structure DirectoryEntry where
  filename : Text
  isRegularFile : Bool
  deriving DecidableEq, Repr

inductive FileCommand where
  | createDirectories (path : Path)
  | directoryIterator (path : Path)
  | exists (path : Path)
  | openTruncated (path : Path)
  | write (path : Path) (offset : Nat) (piece : Text)
  | close (path : Path)
  | openForReading (path : Path)
  | readToEnd (path : Path)
  | remove (path : Path)
  deriving DecidableEq

def FileCommand.path : FileCommand → Path
  | .createDirectories path => path
  | .directoryIterator path => path
  | .exists path => path
  | .openTruncated path => path
  | .write path _ _ => path
  | .close path => path
  | .openForReading path => path
  | .readToEnd path => path
  | .remove path => path

def FileCommand.onFile : FileCommand → Bool
  | .createDirectories _ | .directoryIterator _ | .exists _ => false
  | _ => true

/-- Calls that report an error code return none with it. -/
abbrev FileCommand.Reply : FileCommand → Type
  | .createDirectories _ => Bool
  | .directoryIterator _ => Option (List DirectoryEntry)
  | .exists _ => Bool
  | .openTruncated _ => Bool
  | .write _ _ _ => Bool
  | .close _ => Bool
  | .openForReading _ => Bool
  | .readToEnd _ => Text
  | .remove _ => Option Bool

abbrev FileProgram := Program FileCommand FileCommand.Reply

abbrev IterationOrder := Arrangement DirectoryEntry

namespace FileSystem

/-- The working directory is there without being listed. -/
def isDirectory (fs : FileSystem) (path : Path) : Bool :=
  path.isEmpty || fs.get path == some .directory

def makeDirectories : Path → Path → FileSystem → Bool × FileSystem
  | _, [], fs => (true, fs)
  | parent, name :: rest, fs =>
      match fs.get (parent ++ [name]) with
      | some (.file _) => (false, fs)
      | some .directory => makeDirectories (parent ++ [name]) rest fs
      | none =>
          makeDirectories (parent ++ [name]) rest (fs.insert (parent ++ [name]) .directory)

def entryOf (directory : Path) (node : Sigma fun _ : Path => Node) :
    Option DirectoryEntry :=
  match node.1.getLast? with
  | some filename =>
      if node.1 = directory ++ [filename] then
        some ⟨filename, node.2.isRegularFile⟩
      else none
  | none => none

def children (fs : FileSystem) (directory : Path) : List DirectoryEntry :=
  fs.entries.filterMap (entryOf directory)

/-- Bytes put into a file at an offset; a gap before them reads as zeros. -/
def overwrite (content : Text) (offset : Nat) (piece : Text) : Text :=
  (content ++ List.replicate (offset - content.length) '\x00').take offset ++
    piece ++ content.drop (offset + piece.length)

def openTruncated (fs : FileSystem) (path : Path) : Bool × FileSystem :=
  match fs.get path with
  | some (.file _) => (true, fs.insert path (.file []))
  | some .directory => (false, fs)
  | none =>
      if path ≠ [] ∧ isDirectory fs path.dropLast then
        (true, fs.insert path (.file []))
      else (false, fs)

def write (fs : FileSystem) (path : Path) (offset : Nat) (piece : Text) : FileSystem :=
  match fs.get path with
  | some (.file content) => fs.insert path (.file (overwrite content offset piece))
  | _ => fs

def content (fs : FileSystem) (path : Path) : Option Text :=
  match fs.get path with
  | some (.file content) => some content
  | _ => none

def remove (fs : FileSystem) (path : Path) : Option Bool × FileSystem :=
  match fs.get path with
  | none => (some false, fs)
  | some (.file _) => (some true, fs.erase path)
  | some .directory =>
      if (children fs path).isEmpty then (some true, fs.erase path) else (none, fs)

/-- Every call succeeds that the table permits; no name is too long.  A directory does not
open for reading here.  In fact it does, and what throws is the read, but none of the stores
has one where a file of an object would be. -/
def perform (order : IterationOrder) :
    Handler FileCommand FileCommand.Reply FileSystem
  | fs, .createDirectories path => makeDirectories [] path fs
  | fs, .directoryIterator path =>
      (if isDirectory fs path then some (order.arrange (children fs path)) else none, fs)
  | fs, .exists path => ((fs.get path).isSome, fs)
  | fs, .openTruncated path => openTruncated fs path
  | fs, .write path offset piece => (true, write fs path offset piece)
  | fs, .close _ => (true, fs)
  | fs, .openForReading path => ((content fs path).isSome, fs)
  | fs, .readToEnd path => ((content fs path).getD [], fs)
  | fs, .remove path => remove fs path

/-- The operations that fail.  A write fails once the given number of bytes of its
file have been written. -/
structure Faults where
  createDirectories : Bool
  directoryIterator : Bool
  openTruncated : Bool
  write : Option Nat
  close : Bool

def noFaults : Faults := ⟨false, false, false, none, false⟩

def Faults.transferred (faults : Faults) (data : Text) : Text :=
  match faults.write with
  | some limit => data.take limit
  | none => data

def Faults.transfersAll (faults : Faults) (data : Text) : Bool :=
  match faults.write with
  | some limit => decide (data.length ≤ limit)
  | none => true

def performFaulty (order : IterationOrder) (faults : Faults) :
    Handler FileCommand FileCommand.Reply FileSystem
  | fs, .createDirectories path =>
      if faults.createDirectories then (false, fs)
      else perform order fs (.createDirectories path)
  | fs, .directoryIterator path =>
      if faults.directoryIterator then (none, fs)
      else perform order fs (.directoryIterator path)
  | fs, .openTruncated path =>
      if faults.openTruncated then (false, fs) else perform order fs (.openTruncated path)
  | fs, .write path offset piece =>
      match faults.write with
      | some limit =>
          if offset + piece.length ≤ limit then perform order fs (.write path offset piece)
          else (false, write fs path offset (piece.take (limit - offset)))
      | none => perform order fs (.write path offset piece)
  | fs, .close path => (!faults.close, (perform order fs (.close path)).2)
  | fs, command => perform order fs command

theorem performFaulty_noFaults (order : IterationOrder) :
    performFaulty order noFaults = perform order := by
  funext fs command
  cases command <;> rfl

theorem elements_of_free {text : Text} (free : '/' ∉ text) (nonempty : text ≠ []) :
    elements text = [text] := by
  simp only [elements]
  cases text with
  | nil => exact absurd rfl nonempty
  | cons c rest =>
      have relative : (c :: rest).head? ≠ some '/' := by
        intro absolute
        simp only [List.head?_cons, Option.some.injEq] at absolute
        exact free (by simp [absolute])
      rw [if_neg relative]
      exact pieces_of_free '/' (c :: rest) free nonempty

/-- A name without separators extends a path by one element. -/
theorem slash_of_free (path : Path) {text : Text} (free : '/' ∉ text)
    (nonempty : text ≠ []) : path.slash text = path ++ [text] := by
  simp only [Path.slash]
  have relative : text.head? ≠ some '/' := by
    intro absolute
    exact free (List.mem_of_mem_head? absolute)
  rw [if_neg relative, elements_of_free free nonempty]

/-! ## Directories -/

/-- Making directories adds missing ones on the way to the path, and nothing
else. -/
theorem makeDirectories_lookup (parent rest : Path) (fs : FileSystem) (path : Path) :
    (makeDirectories parent rest fs).2.get path = fs.get path ∨
      (fs.get path = none ∧
        (makeDirectories parent rest fs).2.get path = some .directory ∧
        ∃ front ≠ [], front <+: rest ∧ path = parent ++ front) := by
  induction rest generalizing parent fs with
  | nil => exact Or.inl rfl
  | cons name rest ih =>
      simp only [makeDirectories]
      have deeper : ∀ front, front <+: rest → path = parent ++ [name] ++ front →
          ∃ front ≠ [], front <+: name :: rest ∧ path = parent ++ front := by
        intro front inside same
        refine ⟨name :: front, by simp, ?_, by simp [same]⟩
        exact (List.prefix_cons_inj name).mpr inside
      split
      · exact Or.inl rfl
      · rcases ih (parent ++ [name]) fs with kept | ⟨missing, made, front, _, inside, same⟩
        · exact Or.inl kept
        · exact Or.inr ⟨missing, made, deeper front inside same⟩
      · rename_i missing
        by_cases here : path = parent ++ [name]
        · subst here
          have present := Table.get_insert fs (parent ++ [name]) (parent ++ [name])
            Node.directory
          rw [if_pos rfl] at present
          refine Or.inr ⟨missing, ?_, deeper [] List.nil_prefix (by simp)⟩
          rcases ih (parent ++ [name]) (fs.insert (parent ++ [name]) .directory) with
            kept | ⟨absent, _⟩
          · rw [kept, present]
          · rw [present] at absent
            exact absurd absent (by simp)
        · have same := Table.get_insert fs (parent ++ [name]) path Node.directory
          rw [if_neg here] at same
          rcases ih (parent ++ [name]) (fs.insert (parent ++ [name]) .directory) with
            kept | ⟨absent, made, front, _, inside, located⟩
          · exact Or.inl (kept.trans same)
          · exact Or.inr ⟨same.symm.trans absent, made, deeper front inside located⟩

theorem makeDirectories_made (parent rest : Path) (fs : FileSystem)
    (nonempty : rest ≠ []) (success : (makeDirectories parent rest fs).1 = true) :
    (makeDirectories parent rest fs).2.get (parent ++ rest) = some .directory := by
  induction rest generalizing parent fs with
  | nil => exact absurd rfl nonempty
  | cons name rest ih =>
      -- what is made behind the first name, when that name is a directory
      have behind : ∀ fs : FileSystem, fs.get (parent ++ [name]) = some .directory →
          (makeDirectories (parent ++ [name]) rest fs).1 = true →
          (makeDirectories (parent ++ [name]) rest fs).2.get (parent ++ name :: rest) =
            some .directory := by
        intro fs present success
        cases rest with
        | nil => exact present
        | cons second rest =>
            have made := ih (parent ++ [name]) fs (by simp) success
            rw [List.append_assoc] at made
            exact made
      simp only [makeDirectories] at success ⊢
      split at success
      · simp at success
      · rename_i present
        exact behind fs present success
      · apply behind _ _ success
        rw [Table.get_insert, if_pos rfl]

/-- Nothing but a file can stand in the way. -/
theorem makeDirectories_succeeds (parent rest : Path) (fs : FileSystem)
    (clear : ∀ front ≠ [], front <+: rest → ∀ content,
      fs.get (parent ++ front) ≠ some (.file content)) :
    (makeDirectories parent rest fs).1 = true := by
  induction rest generalizing parent fs with
  | nil => rfl
  | cons name rest ih =>
      have first := clear [name] (by simp) (by simp)
      have further : ∀ front ≠ [], front <+: rest → ∀ content,
          fs.get (parent ++ [name] ++ front) ≠ some (.file content) := by
        intro front _ inside content
        have whole := clear (name :: front) (by simp)
          ((List.prefix_cons_inj name).mpr inside) content
        simpa using whole
      simp only [makeDirectories]
      split
      · rename_i content present
        exact absurd present (first content)
      · exact ih (parent ++ [name]) fs further
      · apply ih
        intro front nonempty inside content
        rw [Table.get_insert, if_neg (by simp [nonempty])]
        exact further front nonempty inside content

theorem makeDirectories_content (parent rest : Path) (fs : FileSystem) (path : Path) :
    content (makeDirectories parent rest fs).2 path = content fs path := by
  simp only [content]
  rcases makeDirectories_lookup parent rest fs path with kept | ⟨missing, made, _⟩
  · rw [kept]
  · rw [missing, made]

theorem entryOf_eq_some_iff (directory path : Path) (node : Node)
    (entry : DirectoryEntry) :
    entryOf directory ⟨path, node⟩ = some entry ↔
      path = directory ++ [entry.filename] ∧ entry.isRegularFile = node.isRegularFile := by
  simp only [entryOf]
  constructor
  · intro found
    split at found
    · split at found
      · rename_i filename last located
        simp only [Option.some.injEq] at found
        subst found
        exact ⟨located, rfl⟩
      · simp at found
    · simp at found
  · rintro ⟨rfl, regular⟩
    simp [← regular]

theorem mem_children_iff (fs : FileSystem) (directory : Path) (entry : DirectoryEntry) :
    entry ∈ children fs directory ↔
      ∃ node, fs.get (directory ++ [entry.filename]) = some node ∧
        entry.isRegularFile = node.isRegularFile := by
  simp only [children]
  rw [List.mem_filterMap]
  constructor
  · rintro ⟨⟨path, node⟩, member, found⟩
    obtain ⟨located, regular⟩ := (entryOf_eq_some_iff _ _ _ _).mp found
    subst located
    exact ⟨node, (Table.mem_entries_iff fs _ node).mp member, regular⟩
  · rintro ⟨node, present, regular⟩
    refine ⟨⟨directory ++ [entry.filename], node⟩, ?_, ?_⟩
    · exact (Table.mem_entries_iff fs _ node).mpr present
    · exact (entryOf_eq_some_iff _ _ _ _).mpr ⟨rfl, regular⟩

theorem children_distinct (fs : FileSystem) (directory : Path) :
    (children fs directory).Pairwise fun first second =>
      first.filename ≠ second.filename := by
  simp only [children]
  rw [List.pairwise_filterMap]
  apply (Table.entries_distinct fs).imp
  rintro ⟨path, node⟩ ⟨other, otherNode⟩ different first firstFound second secondFound same
  obtain ⟨located, _⟩ := (entryOf_eq_some_iff _ _ _ _).mp firstFound
  obtain ⟨otherLocated, _⟩ := (entryOf_eq_some_iff _ _ _ _).mp secondFound
  apply different
  rw [located, otherLocated, same]

theorem content_eq_some_iff (fs : FileSystem) (path : Path) (text : Text) :
    content fs path = some text ↔ fs.get path = some (.file text) := by
  simp only [content]
  split
  · rename_i present
    simp [present]
  · rename_i absent
    constructor
    · simp
    · intro present
      exact absurd present (absent text)

theorem content_insert (fs : FileSystem) (path other : Path) (text : Text) :
    content (fs.insert path (.file text)) other =
      if other = path then some text else content fs other := by
  simp only [content]
  rw [Table.get_insert]
  by_cases same : other = path
  · simp [same]
  · simp [same]

theorem content_erase (fs : FileSystem) (path other : Path) :
    content (fs.erase path) other = if other = path then none else content fs other := by
  simp only [content]
  rw [Table.get_erase]
  by_cases same : other = path
  · simp [same]
  · simp [same]

/-- An open that succeeds leaves the file there, and empty. -/
theorem openTruncated_cases (fs : FileSystem) (path : Path) :
    openTruncated fs path = (false, fs) ∨
      (openTruncated fs path = (true, fs.insert path (.file [])) ∧
        fs.get path ≠ some .directory) := by
  simp only [openTruncated]
  split
  · exact Or.inr ⟨rfl, by simp_all⟩
  · exact Or.inl rfl
  · split
    · exact Or.inr ⟨rfl, by simp_all⟩
    · exact Or.inl rfl

theorem openTruncated_succeeds (fs : FileSystem) (directory : Path) (name : Text)
    (present : fs.get directory = some .directory)
    (noDirectory : fs.get (directory ++ [name]) ≠ some .directory) :
    openTruncated fs (directory ++ [name]) =
      (true, fs.insert (directory ++ [name]) (.file [])) := by
  simp only [openTruncated]
  split
  · rfl
  · rename_i blocked
    exact absurd blocked noDirectory
  · simp [isDirectory, present]

theorem openTruncated_content (fs : FileSystem) (path other : Path) (differs : other ≠ path) :
    content (openTruncated fs path).2 other = content fs other := by
  rcases openTruncated_cases fs path with refused | ⟨opened, _⟩
  · rw [refused]
  · rw [opened, content_insert, if_neg differs]

theorem write_content (fs : FileSystem) (path other : Path) (offset : Nat) (piece : Text)
    (differs : other ≠ path) : content (write fs path offset piece) other = content fs other := by
  simp only [write]
  split
  · rw [content_insert, if_neg differs]
  · rfl

theorem overwrite_end (written piece : Text) :
    overwrite written written.length piece = written ++ piece := by
  simp [overwrite]

theorem write_end (fs : FileSystem) (path : Path) (written piece : Text)
    (present : fs.get path = some (.file written)) :
    write fs path written.length piece = fs.insert path (.file (written ++ piece)) := by
  simp [write, present, overwrite_end]

end FileSystem
end BathroomRatings.Store

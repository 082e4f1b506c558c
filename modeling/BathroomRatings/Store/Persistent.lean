import BathroomRatings.Store.FileSystem
import BathroomRatings.Store.Validation
import BathroomRatings.Lib.Search

/-!
# The persistent store

`EntityStorePersistent` as programs of file-system calls.  A stream hands its data
to the file in pieces; after a piece that fails it writes no more, and closing
reports the failure.
-/

set_option autoImplicit false

namespace BathroomRatings.Store

open BathroomRatings.Lib BathroomRatings.Lib.Decimal BathroomRatings.Lib.Interface
open BathroomRatings.Lib.Search BathroomRatings.Lib.Sorting BathroomRatings.Lib.Word
open BathroomRatings.Lib.Interface.Program (request ofOption)

structure Buffering where
  pieces : Text → List Text
  flatten_pieces : ∀ data, (pieces data).flatten = data

/-- What a call meets: the order of its directory iteration and the pieces of its
output stream. -/
structure Environment where
  order : IterationOrder
  buffering : Buffering

/-- Directories in the order of the table, and data written in one piece. -/
def Environment.plain : Environment where
  order := Arrangement.plain
  buffering := ⟨fun data => [data], by simp⟩

/-- The loop that looks for an unused id ends if it meets one before it has seen as
many as there are ids. -/
def lowestUnused (ids : List Int) : Option Int :=
  firstFree successor (fun id => ids.contains id) (ids.dedup.length + 1) 0

def idsOf (entries : List DirectoryEntry) : List Int :=
  entries.filterMap fun entry =>
    if entry.isRegularFile then parseId entry.filename else none

namespace EntityStorePersistent

def construct (dataRoot : Path) : FileProgram Unit := do
  let _ ← request (FileCommand.createDirectories dataRoot)
  pure ()

def entityDirectory (dataRoot : Path) (entityName : Text) : Path :=
  dataRoot.slash entityName

def entityFilePath (dataRoot : Path) (entityName : Text) (id : Int) : Path :=
  (entityDirectory dataRoot entityName).slash (decimal id)

def ensureEntityDirectory (dataRoot : Path) (entityName : Text) : FileProgram Bool :=
  request (FileCommand.createDirectories (entityDirectory dataRoot entityName))

def writePieces (path : Path) : Nat → List Text → FileProgram Bool
  | _, [] => pure true
  | offset, piece :: rest => do
      if ← request (FileCommand.write path offset piece) then
        writePieces path (offset + piece.length) rest
      else pure false

/-- `output << data; output.close();` and the check behind them. -/
def finishFile (path : Path) (offset : Nat) (pieces : List Text) : FileProgram Bool := do
  let written ← writePieces path offset pieces
  let closed ← request (FileCommand.close path)
  pure (written && closed)

def writeFile (path : Path) (pieces : List Text) : FileProgram Bool := do
  if ← request (FileCommand.openTruncated path) then finishFile path 0 pieces
  else pure false

def createFile (path : Path) (pieces : List Text) (nextId : Int) : FileProgram Int := do
  if ← writeFile path pieces then pure nextId else pure (-1)

def createUnused (entityDir : Path) (pieces : List Text) : FileProgram Int := do
  match ← request (FileCommand.directoryIterator entityDir) with
  | none => pure (-1)
  | some entries =>
      let nextId ← ofOption (lowestUnused (idsOf entries))
      createFile (entityDir.slash (decimal nextId)) pieces nextId

def create (dataRoot : Path) (buffering : Buffering) (entityName data : Text) :
    FileProgram Int :=
  if isValidEntityName entityName then do
    if ← ensureEntityDirectory dataRoot entityName then
      createUnused (entityDirectory dataRoot entityName) (buffering.pieces data)
    else pure (-1)
  else pure (-1)

def read (dataRoot : Path) (entityName : Text) (id : Int) (outData : Text) :
    FileProgram (Bool × Text) :=
  if id < 0 ∨ isValidEntityName entityName = false then pure (false, outData)
  else do
    let filePath := entityFilePath dataRoot entityName id
    if ← request (FileCommand.openForReading filePath) then
      let data ← request (FileCommand.readToEnd filePath)
      pure (true, data)
    else pure (false, outData)

def update (dataRoot : Path) (buffering : Buffering) (entityName : Text) (id : Int)
    (data : Text) : FileProgram Bool :=
  if id < 0 ∨ isValidEntityName entityName = false then pure false
  else do
    if ← ensureEntityDirectory dataRoot entityName then
      writeFile (entityFilePath dataRoot entityName id) (buffering.pieces data)
    else pure false

def delete (dataRoot : Path) (entityName : Text) (id : Int) : FileProgram Bool :=
  if id < 0 ∨ isValidEntityName entityName = false then pure false
  else do
    match ← request (FileCommand.remove (entityFilePath dataRoot entityName id)) with
    | some removed => pure removed
    | none => pure false

def list (dataRoot : Path) (entityName : Text) : FileProgram (List Int) :=
  if isValidEntityName entityName then do
    let entityDir := entityDirectory dataRoot entityName
    if ← request (FileCommand.exists entityDir) then
      let entries ← request (FileCommand.directoryIterator entityDir)
      pure (ascending (idsOf (entries.getD [])))
    else pure []
  else pure []

end EntityStorePersistent

def entityStorePersistent (dataRoot : Path) (buffering : Buffering) :
    EntityStore FileProgram where
  create := EntityStorePersistent.create dataRoot buffering
  read := EntityStorePersistent.read dataRoot
  update := EntityStorePersistent.update dataRoot buffering
  delete := EntityStorePersistent.delete dataRoot
  list := EntityStorePersistent.list dataRoot

end BathroomRatings.Store

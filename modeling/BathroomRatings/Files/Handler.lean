import BathroomRatings.Http.Message
import BathroomRatings.Lib.Interface
import BathroomRatings.Lib.Strings

/-!
# The file handler

`FileRequestHandler` as a program over the queries it puts to the file system.  Three
of them can throw; one `try` block covers all but the first.
-/

set_option autoImplicit false

namespace BathroomRatings.Files

open BathroomRatings.Http BathroomRatings.Lib.Interface BathroomRatings.Lib.Strings

/-- What the handler uses of `fs::path`, on the text of a path. -/
structure PathLibrary where
  /-- `operator/` -/
  append : Text → Text → Text
  extension : Text → Text
  append_relative : ∀ path other, other ≠ [] → other.head? ≠ some '/' →
    append path other =
      if path = [] ∨ path.getLast? = some '/' then path ++ other else path ++ '/' :: other

def extensionOf (path : Text) : Text :=
  let filename := (path.reverse.takeWhile (· ≠ '/')).reverse
  if filename = ['.'] ∨ filename = ['.', '.'] ∨ '.' ∉ filename then []
  else '.' :: (filename.reverse.takeWhile (· ≠ '.')).reverse

/-- An absolute right operand is put behind the left one like any other. -/
def PathLibrary.plain : PathLibrary where
  append path other :=
    if other = [] then path
    else if path = [] ∨ path.getLast? = some '/' ∨ other.head? = some '/' then path ++ other
    else path ++ '/' :: other
  extension := extensionOf
  append_relative := by
    intro path other nonempty relative
    simp [nonempty, relative]

/-- `fs::filesystem_error`; no code looks into it. -/
inductive FilesystemError where
  | thrown
  deriving DecidableEq

inductive Query where
  | exists (path : Text)
  | canonical (path : Text)
  | isDirectory (path : Text)
  | readFile (path : Text)
  deriving DecidableEq

def Query.path : Query → Text
  | .exists path => path
  | .canonical path => path
  | .isDirectory path => path
  | .readFile path => path

/-- A file that does not open gives none. -/
abbrev Query.Reply : Query → Type
  | .exists _ => Except FilesystemError Bool
  | .canonical _ => Except FilesystemError Text
  | .isDirectory _ => Except FilesystemError Bool
  | .readFile _ => Option Text

abbrev FileAction := ExceptT FilesystemError (Program Query Query.Reply)

def fsExists (path : Text) : FileAction Bool :=
  ExceptT.mk (Program.request (Query.exists path))

def fsCanonical (path : Text) : FileAction Text :=
  ExceptT.mk (Program.request (Query.canonical path))

def fsIsDirectory (path : Text) : FileAction Bool :=
  ExceptT.mk (Program.request (Query.isDirectory path))

/-- Opening and reading a stream throw nothing. -/
def readFile (filepath : Text) : FileAction Text := do
  let content : Option Text ← ExceptT.lift (Program.request (Query.readFile filepath))
  pure (content.getD [])

def contentTypes : List (String × String) :=
  [(".html", "text/html"), (".htm", "text/html"), (".css", "text/css"),
    (".js", "application/javascript"), (".json", "application/json"), (".png", "image/png"),
    (".jpg", "image/jpeg"), (".jpeg", "image/jpeg"), (".gif", "image/gif"),
    (".svg", "image/svg+xml"), (".ico", "image/x-icon"), (".txt", "text/plain"),
    (".pdf", "application/pdf"), (".zip", "application/zip")]

def getContentType (library : PathLibrary) (filepath : Text) : Text :=
  match contentTypes.find? (fun known => known.1.toList == library.extension filepath) with
  | some (_, contentType) => contentType.toList
  | none => "application/octet-stream".toList

/-- The url without the prefix and without a slash in front. -/
def relativePath (urlPrefix url : Text) : Text :=
  let urlPath :=
    if urlPrefix ≠ [] ∧ find urlPrefix url = some 0 then
      if url.drop urlPrefix.length = [] then ['/'] else url.drop urlPrefix.length
    else url
  let urlPath := if urlPath.head? = some '/' then urlPath.drop 1 else urlPath
  if urlPath = [] then ['.'] else urlPath

def sendFile (library : PathLibrary) (requestedPath : Text) : FileAction Response := do
  let fileContent ← readFile requestedPath
  pure (ResponseBuilder.ok fileContent (getContentType library requestedPath))

def indexHtml : Text := "index.html".toList

def sendIndex (library : PathLibrary) (requestedPath : Text) : FileAction Response := do
  let requestedPath := library.append requestedPath indexHtml
  if ← fsExists requestedPath then sendFile library requestedPath
  else pure ResponseBuilder.defaultNotFound

/-- What the `try` block does behind the check for the base directory. -/
def sendCanonical (library : PathLibrary) (requestedPath : Text) : FileAction Response := do
  if ← fsExists requestedPath then
    if ← fsIsDirectory requestedPath then sendIndex library requestedPath
    else sendFile library requestedPath
  else pure ResponseBuilder.defaultNotFound

/-- The `try` block. -/
def sendRequested (library : PathLibrary) (baseDir requestedPath : Text) :
    FileAction Response := do
  let requestedPath ← fsCanonical requestedPath
  let baseCanonical ← fsCanonical baseDir
  if find baseCanonical requestedPath ≠ some 0 then pure ResponseBuilder.defaultForbidden
  else sendCanonical library requestedPath

def handleRequest (library : PathLibrary) (baseDir urlPrefix : Text) (request : Request) :
    FileAction Response := do
  let requestedPath := library.append baseDir (relativePath urlPrefix request.url)
  if ← fsExists requestedPath then
    tryCatch (sendRequested library baseDir requestedPath) fun _ =>
      pure ResponseBuilder.defaultNotFound
  else pure ResponseBuilder.defaultNotFound

end BathroomRatings.Files

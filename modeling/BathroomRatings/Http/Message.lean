import BathroomRatings.Lib.Strings
import BathroomRatings.Lib.Decimal

/-!
# Requests and responses

The two message structures and `ResponseBuilder`.
-/

set_option autoImplicit false

namespace BathroomRatings.Http

open BathroomRatings.Lib.Decimal

structure Request where
  isValid : Bool
  rawRequest : Text
  method : Text
  url : Text
  httpVersion : Text
  headers : List Text
  body : Text
  deriving DecidableEq, Repr

/-- A `request` before anything was stored in it.  `is_valid` has no value there;
it is read only after `Parse` has stored one. -/
def Request.fresh : Request := ⟨false, [], [], [], [], [], []⟩

structure Response where
  httpVersion : Text
  statusCode : Text
  contentType : Text
  contentLength : Text
  headers : List Text
  body : Text
  deriving DecidableEq, Repr

namespace ResponseBuilder

def formatResponse (statusCode contentType body : Text) : Response where
  httpVersion := "1.1".toList
  statusCode := statusCode
  contentType := contentType
  contentLength := decimal body.length
  headers :=
    ["Content-Type: ".toList ++ contentType,
      "Content-Length: ".toList ++ decimal body.length,
      "Connection: close".toList]
  body := body

def ok (body contentType : Text) : Response :=
  formatResponse "200 OK".toList contentType body

def notFound (message : Text) : Response :=
  formatResponse "404 Not Found".toList "text/plain".toList message

def forbidden (message : Text) : Response :=
  formatResponse "403 Forbidden".toList "text/plain".toList message

def badRequest (message : Text) : Response :=
  formatResponse "400 Bad Request".toList "text/plain".toList message

def internalServerError (message : Text) : Response :=
  formatResponse "500 Internal Server Error".toList "text/plain".toList message

def methodNotAllowed (message : Text) : Response :=
  formatResponse "405 Method Not Allowed".toList "text/plain".toList message

/-! The messages the header gives as defaults. -/

def defaultNotFound : Response := notFound "404 Not Found".toList

def defaultForbidden : Response := forbidden "403 Forbidden".toList

def defaultBadRequest : Response := badRequest "400 Bad Request".toList

def defaultInternalServerError : Response :=
  internalServerError "500 Internal Server Error".toList

end ResponseBuilder
end BathroomRatings.Http

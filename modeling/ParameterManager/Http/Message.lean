/-
Requests and responses.

Of a message only the parts are kept that someone looks at: the method, what is asked
for, two headers and the body of a request; the status, two headers and the body of a
response.  Header values are bytes, since nothing makes them text.
-/
import ParameterManager.Http.Charset
import ParameterManager.Http.Status

namespace ParameterManager

/-- A request, as it is sent. -/
structure Request where
  method : String
  /-- The path and the query. -/
  target : String
  authorization : List Bytes := []
  contentType : List Bytes := []
  body : Bytes := []
  deriving DecidableEq, Repr

structure Response where
  status : Status
  contentType : Option Bytes := none
  location : Option Bytes := none
  body : Bytes := []
  deriving DecidableEq, Repr

namespace Response

/-- The body that is read: none after a status that has none. -/
def content (r : Response) : Bytes := if r.status.isBodiless then [] else r.body

/-- The body as text. -/
def text (r : Response) : String := Charset.textOf r.contentType r.content

end Response

/-- A response without headers and body. -/
def Response.empty (status : Status) : Response := { status }

end ParameterManager

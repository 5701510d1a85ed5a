import ApiIntake.Json.Basic

/-!
# Requests and responses

As much of an HTTP message as the service reads or writes.
-/

namespace ApiIntake.Http

/-- A request. -/
structure Request where
  /-- The method. -/
  method : String
  /-- The path, percent-encoded, with the query if there is one. -/
  path : String
  /-- The content type. -/
  contentType : Option String
  /-- The body. -/
  body : List UInt8

/-- What a response carries. -/
inductive Body where
  | empty
  | text (s : String)
  | json (j : Json)
  /-- The stream of announcements from now on. -/
  | updates

/-- A response. -/
structure Response where
  /-- The status code. -/
  status : Nat
  /-- The content type. -/
  contentType : Option String
  /-- The methods that the path takes, if it does not take that of the request. -/
  allow : List String
  /-- The body. -/
  body : Body

namespace Response

/-- A response of plain text. -/
def plain (status : Nat) (s : String) : Response :=
  ⟨status, some "text/plain; charset=utf-8", [], .text s⟩

/-- A response of JSON. -/
def ofJson (status : Nat) (j : Json) : Response := ⟨status, some "application/json", [], .json j⟩

/-- The response where nothing is found. -/
def notFound : Response := ⟨404, none, [], .empty⟩

/-- The response to a method that the path does not take. -/
def methodNotAllowed (allow : List String) : Response := ⟨405, none, allow, .empty⟩

/-- The response without its body. -/
def headOnly (r : Response) : Response := { r with body := .empty }

end Response

end ApiIntake.Http

import ModAlmanac.OrderedMap
import ModAlmanac.Value

/-!
Requests and their replies. What the network would answer is given as a table from requests to
replies, so that an exchange is a value: the requests that were made, in order, and what came of
them.
-/

namespace ModAlmanac.Http

/-- A request. The headers stand in the order of their names. -/
structure Request where
  method : String
  url : String
  headers : List (String × String)
  timeout : Value
  body : Option Value

/-- What a request leads to. -/
inductive Reply where
  | accepted (content : ByteArray)
  | refused (status : Int) (text : String)
  | unreachable (reason : String)
  | broken (reason : String)
  deriving Inhabited

/-- The replies to requests, by method and address with a space between them. -/
abbrev Replies := List (String × Reply)

/-- The reply to a request. Where there is none, nothing was found. -/
def Replies.to (replies : Replies) (request : Request) : Reply :=
  (OrderedMap.find? (request.method ++ " " ++ request.url) replies).getD (.refused 404 "")

/-- The replies that a document records: an object with the contents of what was accepted, by method
and address. -/
def Replies.ofDocument : Value → Replies
  | .table fields =>
    fields.filterMap fun (key, value) =>
      value.text?.map fun text => (key.plain, .accepted text.toUTF8)
  | _ => []

/-- Some requests and what came of them. -/
structure Exchange (α : Type) where
  requests : List Request
  result : α

def Exchange.pure {α : Type} (result : α) : Exchange α :=
  { requests := [], result }

/-- An exchange that goes on with another one where it succeeded. -/
def Exchange.andThen {ε α β : Type} (e : Exchange (Except ε α))
    (next : α → Exchange (Except ε β)) : Exchange (Except ε β) :=
  match e.result with
  | .error reason => { requests := e.requests, result := .error reason }
  | .ok value =>
    { requests := e.requests ++ (next value).requests, result := (next value).result }

def Exchange.map {ε α β : Type} (f : α → β) (e : Exchange (Except ε α)) : Exchange (Except ε β) :=
  { requests := e.requests, result := e.result.map f }

end ModAlmanac.Http

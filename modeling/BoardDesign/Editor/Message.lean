import BoardDesign.Json.Reader
import BoardDesign.Json.Writer
import BoardDesign.Text.Utf8
/-!
The messages that the program and the diagram editor exchange: calls by name, and their answers.
-/

namespace BoardDesign.Editor

inductive Incoming where
  /-- A call to be answered under its id. -/
  | request (id : Json) (method : String) (params : Json)
  /-- A call without an answer. -/
  | notification (method : String) (params : Json)
  /-- An answer to a call of the program. -/
  | response (id : Json)
deriving DecidableEq, Repr

namespace Incoming

def ofJson (a : Json) : Incoming :=
  let a := a.normal
  let params := (a.field? "params").getD .null
  match (a.field? "method").bind Json.str?, (a.field? "id").getD .null with
  | some method, .null => .notification method params
  | some method, id => .request id method params
  | none, id => .response id

/-- The message in a frame. -/
def read? (payload : List UInt8) : Option Incoming :=
  ((Text.Utf8.text? payload).bind Json.parse).map ofJson

end Incoming

namespace Message

def version : String × Json := ("jsonrpc", .str "2.0")

def request (id : Nat) (method : String) (params : Json) : Json :=
  .normal (.obj [version, ("id", .int id), ("method", .str method), ("params", params)])

def response (id result : Json) : Json :=
  .normal (.obj [version, ("id", id), ("result", result)])

/-- Why a call could not be answered. -/
structure Refusal where
  code : Int
  message : String
deriving DecidableEq, Repr

def refused (id : Json) (r : Refusal) : Json :=
  .normal (.obj [version, ("id", id),
    ("error", .obj [("code", .int r.code), ("message", .str r.message)])])

def unknownMethod (method : String) : Refusal := ⟨-32601, s!"unknown method '{method}'"⟩

def missingParameter (name : String) : Refusal := ⟨-32602, s!"missing parameter '{name}'"⟩

/-- A result in the form that the editor shows. -/
def ok (content : Json) : Json := .normal (.obj [("type", .int 0), ("content", content)])

def failed (content : Json) : Json := .normal (.obj [("type", .int 1), ("content", content)])

/-- The result of a call that would start a second job. -/
def busy : Json := failed (.str "Another build or simulation is running.")

/-- The bytes of a message in a frame. -/
def payload (message : Json) : List UInt8 := Text.Utf8.bytes message.compact

end Message

end BoardDesign.Editor

/-
The messages that client and server exchange, and their JSON text: requests, notifications and
responses. Parsing accepts any member order and ignores members it does not know.
-/
import LspClient.Json.Printer
import LspClient.Json.Reader
import LspClient.Message.Peek

namespace LspClient

/-- One message. Absent parameters are `null`. -/
inductive Message where
  | request (id : RequestId) (method : String) (params : Value)
  | notification (method : String) (params : Value)
  /-- A response with a result. -/
  | result (id : RequestId) (value : Value)
  /-- A response with an error object. -/
  | error (id : RequestId) (members : List (String × Value))
  deriving Inhabited

namespace Message

/-! ## Codes and limits -/

/-- The code of text that is not JSON. -/
def parseError : Int := -32700

/-- The code of JSON that is not a message. -/
def invalidRequest : Int := -32600

/-- The code of a method that nobody handles. -/
def methodNotFound : Int := -32601

/-- The code of a failure while handling a request. -/
def internalError : Int := -32603

/-- The default limit on one message, 64 MiB. -/
def maxSize : Number := .int (64 * 1024 * 1024)

/-- How much of an oversized message is looked at to find the request it answers. -/
def headSize : Nat := 1024

/-- A message as it arrives: characters, or octets. -/
inductive Body where
  | text (cs : List Char)
  | octets (bs : Octets)
  deriving Inhabited

/-- The size of a body, in its own units. -/
def Body.size : Body → Nat
  | text cs => cs.length
  | octets bs => bs.length

/-- The id of the request that an oversized body answers, if its head shows one. -/
def Body.peek? : Body → Option RequestId
  | text cs => peekId? (Text.encode (String.ofList (cs.take headSize)))
  | octets bs => peekId? (bs.take headSize)

/-! ## Parsing -/

/-- A fault in a message that is JSON. -/
def invalidMessage (wording : String) (id : Option RequestId) : Fault :=
  .protocol wording (some invalidRequest) [] id

/-- Reads a request or a notification from its members. -/
def ofCall (data : List (String × Value)) (method : Value) : Except Fault Message :=
  match method with
  | .str method =>
    if method.isEmpty then
      .error (invalidMessage "Invalid message: method must be a non-empty string" none)
    else
      let params := (Value.lookup "params" data).getD .null
      match params with
      | .null | .object _ | .map _ | .list _ =>
        match Value.lookup "id" data with
        | none => .ok (notification method params)
        | some id =>
          match RequestId.ofValue? id with
          | some id => .ok (request id method params)
          | none => .error (invalidMessage "Invalid message: id must be integer or string" none)
      | _ => .error (invalidMessage "Invalid message: params must be an object or array" none)
  | _ => .error (invalidMessage "Invalid message: method must be a non-empty string" none)

/-- The id of a response, which may be null. -/
def responseId? : Value → Option RequestId
  | .null => some .null
  | v => RequestId.ofValue? v

/-- The id as a fault names it: nothing for null. -/
def nameable : RequestId → Option RequestId
  | .null => none
  | id => some id

/-- Reads a response from its members. An error without a proper message is still a response. -/
def ofResponse (data : List (String × Value)) (id : Value) : Except Fault Message :=
  match responseId? id with
  | none => .error (invalidMessage "Invalid response: id must be integer or string" none)
  | some id =>
    match Value.lookup "error" data with
    | some (.object members) => .ok (error id members)
    | some _ =>
      .error (invalidMessage "Invalid response: error must be an object" (nameable id))
    | none => .ok (result id ((Value.lookup "result" data).getD .null))

/-- Reads a message from a JSON value. -/
def ofValue (v : Value) : Except Fault Message :=
  match v with
  | .object data =>
    match Value.lookup "jsonrpc" data with
    | some (.str "2.0") =>
      match Value.lookup "method" data, Value.lookup "id" data with
      | some method, _ => ofCall data method
      | none, some id =>
        if (Value.lookup "result" data).isSome || (Value.lookup "error" data).isSome then
          ofResponse data id
        else .error (invalidMessage "Invalid message: neither a call nor a response" none)
      | none, none => .error (invalidMessage "Invalid message: neither a call nor a response" none)
    | _ => .error (invalidMessage "Invalid message: jsonrpc must be '2.0'" none)
  | _ => .error (invalidMessage "Invalid message: must be an object" none)

/-- The JSON value of a body. -/
def Body.read : Body → Except Json.BodyFault Value
  | text cs => Json.readChars cs
  | octets bs => Json.readOctets bs

/-- Reads a message no larger than the limit. -/
def parse (body : Body) (limit : Number := maxSize) : Except Fault Message :=
  if limit.lt (.int body.size) then .error (.messageTooLarge body.size limit body.peek?)
  else
    match body.read with
    | .error (.unreadable wording) =>
      .error (.protocol ("Parse error: " ++ wording) (some parseError) [] none)
    | .error (.oversized wording) => .error (.invalid wording)
    | .ok v => ofValue v

/-! ## Formatting -/

/-- The JSON text of an object, if it has one. -/
def printObject (members : List (String × Value)) : Except Fault String :=
  (Json.print (.object members)).mapError Json.PrintFault.toFault

/-- A member, or none for null. -/
def optional (name : String) : Value → List (String × Value)
  | .null => []
  | v => [(name, v)]

/-- The member that marks every message. -/
def version : String × Value :=
  ("jsonrpc", .str "2.0")

/-- The text of a request. -/
def formatRequest (id : RequestId) (method : String) (params : Value := .null) :
    Except Fault String :=
  printObject (version :: ("id", id.toValue) :: ("method", .str method) :: optional "params" params)

/-- The text of a notification. -/
def formatNotification (method : String) (params : Value := .null) : Except Fault String :=
  printObject (version :: ("method", .str method) :: optional "params" params)

/-- The text of a response with a result. -/
def formatResult (id : RequestId) (value : Value) : Except Fault String :=
  printObject [version, ("id", id.toValue), ("result", value)]

/-- The text of a response with an error. -/
def formatError (id : RequestId) (code : Int) (message : String) (data : Value := .null) :
    Except Fault String :=
  printObject [version, ("id", id.toValue),
    ("error", .object (("code", .int code) :: ("message", .str message) :: optional "data" data))]

end Message

end LspClient

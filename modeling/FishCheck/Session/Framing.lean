import FishCheck.Json.Reader
import FishCheck.Json.Writer
import FishCheck.Session.Message

/-!
# Messages in a stream

Over a stream each message is a frame: header lines, one of which gives the number of
bytes of the body, an empty line and the body, which is JSON.
-/

namespace FishCheck

namespace Framing

/-! ## Frames -/

/-- The name of the header that gives the length. -/
def lengthHeader : Text := "content-length"

/-- Takes a header line off the front of a stream: the line, and what comes after it. -/
def takeHeader : Bytes → Option (Bytes × Bytes)
  | 0x0D :: 0x0A :: rest => some ([], rest)
  | b :: rest => (takeHeader rest).map fun (line, rest) => (b :: line, rest)
  | [] => none

/-- The length that a header line gives. -/
def lengthOf? (header : Text) : Option Nat :=
  let name := (header.takeWhile (· ≠ ':')).map Char.toLower
  let value := (header.dropWhile (· ≠ ':')).drop 1
  let value := ((value.dropWhile (· == ' ')).reverse.dropWhile (· == ' ')).reverse
  if name = lengthHeader then Text.natural? value else none

/-- Takes the headers of a frame: the length, and what comes after the empty line. Fuel is
the length of the stream. -/
def takeHeaders (length? : Option Nat) : Nat → Bytes → Option (Nat × Bytes)
  | 0, _ => none
  | fuel + 1, bs =>
    match takeHeader bs with
    | none => none
    | some ([], rest) => length?.map fun n => (n, rest)
    | some (line, rest) => takeHeaders (lengthOf? (Utf8.lenient line) <|> length?) fuel rest

/-- The bodies of the frames of a stream, up to the first one that is cut short or
malformed. Fuel is the length of the stream. -/
def bodiesFrom : Nat → Bytes → List Bytes
  | 0, _ => []
  | fuel + 1, bs =>
    match takeHeaders none (bs.length + 1) bs with
    | none => []
    | some (n, rest) =>
      if n ≤ rest.length then rest.take n :: bodiesFrom fuel (rest.drop n) else []

/-- The bodies of the frames of a stream. -/
def bodies (bs : Bytes) : List Bytes := bodiesFrom bs.length bs

/-- The frame of a body. -/
def frame (body : Text) : Text :=
  "Content-Length: " ++ Text.decimal (Utf8.size body) ++ "\r\n\r\n" ++ body

/-! ## Bodies -/

/-- What a body is. -/
inductive Body
  | message (m : Message)
  /-- An answer of the editor, which nobody waits for. -/
  | answer
  | malformed (r : Refusal)

/-- Reads a JSON value as a message. -/
def ofJson (j : Json) : Body :=
  match j with
  | .obj _ =>
    if (j.get? "jsonrpc").bind Json.text? ≠ some "2.0" then .malformed .invalidRequest
    else match (j.get? "method").bind Json.text?, j.get? "id" with
      | some method, none => .message ⟨method, none, j.get? "params"⟩
      | some method, some id =>
        match RequestId.read? id with
        | some id => .message ⟨method, some id, j.get? "params"⟩
        | none => .malformed .invalidRequest
      | none, some _ =>
        if (j.get? "result").isSome || (j.get? "error").isSome then .answer
        else .malformed .invalidRequest
      | none, none => .malformed .invalidRequest
  | _ => .malformed .invalidRequest

/-- Reads a body. -/
def readBody (bs : Bytes) : Body :=
  match (Utf8.strict? bs).bind Json.read? with
  | some j => ofJson j
  | none => .malformed .parseError

/-- Writes an answer. -/
def writeAnswer (request : RequestId) : Except Refusal Json → Json
  | .ok result => .record [("jsonrpc", "2.0"), ("result", result), ("id", request.write)]
  | .error r => .record [("jsonrpc", "2.0"),
      ("error", .record [("code", .int r.code), ("message", .str r.message)]),
      ("id", request.write)]

/-- Writes what a session sends. -/
def writeReply : Reply → Json
  | .answer request result => writeAnswer request result
  | .notify method params =>
    .record [("jsonrpc", "2.0"), ("method", .str method), ("params", params)]

end Framing

end FishCheck

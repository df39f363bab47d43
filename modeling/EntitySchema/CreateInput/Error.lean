import EntitySchema.Json.Value

/-!
Errors of applying a Create input to a payload.
-/

namespace EntitySchema

inductive Expectation where
  | anObject
  | anArray
  | listOfObjects
  | anId
  | listOfIds
  deriving DecidableEq, Repr

def Expectation.text : Expectation → String
  | .anObject => "an object"
  | .anArray => "an array"
  | .listOfObjects => "a list of objects"
  | .anId => "an id"
  | .listOfIds => "a list of ids"

inductive JsonKind where
  | null
  | boolean
  | number
  | string
  | array
  | object
  deriving DecidableEq, Repr

def JsonKind.text : JsonKind → String
  | .null => "null"
  | .boolean => "a boolean"
  | .number => "a number"
  | .string => "a string"
  | .array => "an array"
  | .object => "an object"

def Json.kind : Json → JsonKind
  | .null => .null
  | .bool _ => .boolean
  | .number _ => .number
  | .string _ => .string
  | .array _ => .array
  | .object _ => .object

inductive InputError where
  | payloadShape (field : String) (expected : Expectation) (actual : JsonKind)
  | unknownType (name : String)
  /-- The instant of creation has no RFC 3339 text. -/
  | timestamp (reason : String)
  deriving DecidableEq, Repr

namespace InputError

def message : InputError → String
  | .payloadShape field expected actual =>
    "Expected value for \"" ++ field ++ "\" to be " ++ expected.text ++ ", but is " ++
      actual.text
  | .unknownType name => "No input type for \"" ++ name ++ "\""
  | .timestamp reason => "Cannot render timestamp: " ++ reason

/-- Whether the client sent a malformed payload. -/
def isPayloadError : InputError → Bool
  | .payloadShape .. => true
  | _ => false

end InputError

end EntitySchema

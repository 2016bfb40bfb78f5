/-! Causes of failure. A document may put any value anywhere, so most faults say which kind of
value was needed; the others are refusals with a message of their own. -/
namespace TypedClient

/-- Why a description of an API is refused. -/
inductive Unsupported where
  | notAnObject
  | unknownFormat
  | openApiVersion (version : String)
  | swaggerVersion (version : String)
  | swaggerPaths
  | swaggerConversion
deriving DecidableEq, Repr

/-- Why a path leads to no file. -/
inductive Unreadable where
  | missing
  | directory
  | notInDirectory
  | tooLong
  /-- A null character stands in the path. -/
  | notAPath
deriving DecidableEq, Repr

/-- Why a specification or a configuration cannot be loaded. -/
inductive LoadFailure where
  | unreadable (path : String) (cause : Unreadable)
  | unparsable (path : String)
  | fetch (url reason : String)
  | unparsableAt (url : String)
  | config (path : String) (reason : Option String)
deriving DecidableEq, Repr

/-- Why generated text is refused. -/
inductive Malformed where
  | empty
  | unbalanced (opening closing : Nat)
deriving DecidableEq, Repr

inductive Fault where
  /-- A list or an object stands where a key is needed. -/
  | compoundKey
  /-- The elements of a value that has none are asked for. -/
  | notSequence
  /-- Two values that have no common order are compared. -/
  | incomparable
  /-- Text is needed and something else stands there. -/
  | notText
  /-- A plain value stands where an operation is needed. -/
  | notOperation
  /-- The member of a value that has none is asked for. -/
  | noMembers
  /-- A member is given a value that it cannot hold. -/
  | unfitMember
  /-- A member that cannot be set is set. -/
  | fixedMember
  /-- A member that must be there is missing. -/
  | missingMember
  /-- An element that must be there is missing. -/
  | missingElement
  /-- A digit that has no decimal value stands in a numeral. -/
  | notDecimal
  /-- A numeral has so many digits: none, or more than it may have. -/
  | numeral (digits : Nat)
  /-- No output kind has this name; the value is quoted. -/
  | unknownOutputKind (quoted : String)
  | unsupported (cause : Unsupported)
  | load (cause : LoadFailure)
  | malformed (label : String) (cause : Malformed)
  /-- A directory stands where a file is written. -/
  | isDirectory
  /-- A file stands where a directory is needed. -/
  | fileExists
  /-- A path leads through a file. -/
  | throughFile
  /-- A path or a name in it is too long. -/
  | pathTooLong
  /-- A null character stands in a path. -/
  | notAPath
  /-- A file is moved over the directory in which it is, or one above it. -/
  | occupied
  /-- Definitions are nested without end. -/
  | tooDeep
deriving DecidableEq, Repr

def Unsupported.message : Unsupported → String
  | .notAnObject => "The API description must be a JSON/YAML object"
  | .unknownFormat =>
    "Unknown API description format: expected an 'openapi' or 'swagger' version key"
  | .openApiVersion version => s!"Unsupported OpenAPI version: {version}"
  | .swaggerVersion version => s!"Unsupported Swagger version: {version}"
  | .swaggerPaths => "Swagger document has no valid 'paths' object"
  | .swaggerConversion => "Could not convert Swagger 2.0 document"

/-- The system's number and wording of the cause. -/
def Unreadable.message : Unreadable → String
  | .missing => "[Errno 2] No such file or directory"
  | .directory => "[Errno 21] Is a directory"
  | .notInDirectory => "[Errno 20] Not a directory"
  | .tooLong => "[Errno 36] File name too long"
  | .notAPath => "embedded null byte"

def Malformed.message : Malformed → String
  | .empty => "Generated module is empty"
  | .unbalanced opening closing =>
    s!"Generated code has unbalanced braces: {opening} open, {closing} close"

namespace Fault

/-- A value of the wrong kind was met, as opposed to a refusal. -/
def isMismatch : Fault → Bool
  | compoundKey | notSequence | incomparable | notText | notOperation | noMembers
  | missingMember => true
  | _ => false

/-- A refusal, which a command reports to its user. -/
def isRefusal : Fault → Bool
  | unsupported _ | load _ | malformed _ _ => true
  | _ => false

end Fault

end TypedClient

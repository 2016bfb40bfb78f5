import TypedClient.Json.Basic

/-! Inherent members: the names that a value has by its kind alone, whatever it holds. They can be
read and never set. -/
namespace TypedClient.Json

/-- The class of a value. It is a member of every value, and holds nothing but a class. -/
def className : String := "__class__"

/-- The members of every value. -/
def commonNames : List String :=
  [className, "__delattr__", "__dir__", "__doc__", "__eq__", "__format__", "__ge__",
   "__getattribute__", "__getstate__", "__gt__", "__hash__", "__init__", "__init_subclass__",
   "__le__", "__lt__", "__ne__", "__new__", "__reduce__", "__reduce_ex__", "__repr__",
   "__setattr__", "__sizeof__", "__str__", "__subclasshook__"]

/-- The members of every number. -/
def numberNames : List String :=
  ["__abs__", "__add__", "__bool__", "__ceil__", "__divmod__", "__float__", "__floor__",
   "__floordiv__", "__getnewargs__", "__int__", "__mod__", "__mul__", "__neg__", "__pos__",
   "__pow__", "__radd__", "__rdivmod__", "__rfloordiv__", "__rmod__", "__rmul__", "__round__",
   "__rpow__", "__rsub__", "__rtruediv__", "__sub__", "__truediv__", "__trunc__",
   "as_integer_ratio", "conjugate", "imag", "real"]

/-- The further members of whole numbers, and of the truth values, which count as such. -/
def wholeNames : List String :=
  ["__and__", "__index__", "__invert__", "__lshift__", "__or__", "__rand__", "__rlshift__",
   "__ror__", "__rrshift__", "__rshift__", "__rxor__", "__xor__", "bit_count", "bit_length",
   "denominator", "from_bytes", "numerator", "to_bytes"]

/-- The further members of decimal numbers. -/
def decimalNames : List String :=
  ["__getformat__", "fromhex", "hex", "is_integer"]

/-- The members of everything that has elements. -/
def elementNames : List String :=
  ["__contains__", "__getitem__", "__iter__", "__len__"]

/-- The further members of text. -/
def textNames : List String :=
  ["__add__", "__getnewargs__", "__mod__", "__mul__", "__rmod__", "__rmul__", "capitalize",
   "casefold", "center", "count", "encode", "endswith", "expandtabs", "find", "format",
   "format_map", "index", "isalnum", "isalpha", "isascii", "isdecimal", "isdigit", "isidentifier",
   "islower", "isnumeric", "isprintable", "isspace", "istitle", "isupper", "join", "ljust",
   "lower", "lstrip", "maketrans", "partition", "removeprefix", "removesuffix", "replace",
   "rfind", "rindex", "rjust", "rpartition", "rsplit", "rstrip", "split", "splitlines",
   "startswith", "strip", "swapcase", "title", "translate", "upper", "zfill"]

/-- The further members of everything whose elements can be changed. -/
def changeNames : List String :=
  ["__class_getitem__", "__delitem__", "__reversed__", "__setitem__", "clear", "copy", "pop"]

/-- The further members of lists. -/
def listNames : List String :=
  ["__add__", "__iadd__", "__imul__", "__mul__", "__rmul__", "append", "count", "extend", "index",
   "insert", "remove", "reverse", "sort"]

/-- The further members of objects. -/
def objectNames : List String :=
  ["__ior__", "__or__", "__ror__", "fromkeys", "get", "items", "keys", "popitem", "setdefault",
   "update", "values"]

/-- The names that a value has by its kind. -/
def inherentNames (value : Json) : List String :=
  commonNames ++ match value with
    | .null => ["__bool__"]
    | .bool _ | .int _ => numberNames ++ wholeNames
    | .float _ => numberNames ++ decimalNames
    | .str _ => elementNames ++ textNames
    | .arr _ => elementNames ++ changeNames ++ listNames
    | .obj _ => elementNames ++ changeNames ++ objectNames

/-- Sets a member of a plain value, which is never possible. The class is refused for the value
that it is given, the other inherent members whatever they are given; a name that is no member is
passed over. -/
def setMember (value : Json) (name : Key) : Except Fault Unit :=
  match name with
  | .text name =>
    if name = className then .error .unfitMember
    else if value.inherentNames.contains name then .error .fixedMember
    else .ok ()
  | _ => .ok ()

end TypedClient.Json

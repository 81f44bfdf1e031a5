import TypedTables.Live.Value

/-!
Making live types from their parts. Unions lie flat, name each member once, and a union of a
single type is that type; a form of the typing module turns texts into forward references and
nothing into the type of nothing.
-/

namespace TypedTables.Live

def formModules : List (String × List (String × String)) := [
  ("builtins", [("List", "list"), ("Dict", "dict"), ("Set", "set"), ("FrozenSet", "frozenset"),
    ("Tuple", "tuple"), ("Type", "type")]),
  ("collections.abc", [("Callable", "Callable"), ("AbstractSet", "Set"),
    ("ByteString", "ByteString"), ("Container", "Container"), ("Hashable", "Hashable"),
    ("ItemsView", "ItemsView"), ("Iterable", "Iterable"), ("Iterator", "Iterator"),
    ("KeysView", "KeysView"), ("Mapping", "Mapping"), ("MappingView", "MappingView"),
    ("MutableMapping", "MutableMapping"), ("MutableSequence", "MutableSequence"),
    ("MutableSet", "MutableSet"), ("Sequence", "Sequence"), ("Sized", "Sized"),
    ("ValuesView", "ValuesView"), ("Awaitable", "Awaitable"), ("AsyncIterator", "AsyncIterator"),
    ("AsyncIterable", "AsyncIterable"), ("Coroutine", "Coroutine"), ("Collection", "Collection"),
    ("AsyncGenerator", "AsyncGenerator"), ("Reversible", "Reversible"),
    ("Generator", "Generator")]),
  ("collections", [("ChainMap", "ChainMap"), ("Counter", "Counter"), ("Deque", "deque"),
    ("DefaultDict", "defaultdict"), ("OrderedDict", "OrderedDict")]),
  ("contextlib", [("ContextManager", "AbstractContextManager"),
    ("AsyncContextManager", "AbstractAsyncContextManager")]),
  ("re", [("Match", "Match"), ("Pattern", "Pattern")])]

def formClass? (name : String) : Option ClassName :=
  formModules.findSome? (fun (module, classes) => (classes.lookup name).map (⟨some module, ·⟩))

def typingClasses : List String := [
  "Any", "Annotated", "ForwardRef", "Generic", "NewType", "ParamSpec", "Protocol", "SupportsAbs",
  "SupportsBytes", "SupportsComplex", "SupportsFloat", "SupportsIndex", "SupportsInt",
  "SupportsRound", "TypeVar"]

def annotatedType : ClassName := ⟨some "typing", "Annotated"⟩

namespace Value

def ofTyping (name : String) : Value :=
  if name = "Text" then .cls (.builtin "str")
  else if name ∈ typingClasses then .cls ⟨some "typing", name⟩
  else .form name

mutual

def asType : Value → Value
  | .data .null => .cls .noneType
  | .data (.text s) => .forward s
  | .list items => .list (asTypes items)
  | v => v

def asTypes : List Value → List Value
  | [] => []
  | v :: vs => v.asType :: asTypes vs

end

def members : Value → List Value
  | .union vs => vs
  | .bar vs => vs
  | v => [v]

/-- Each value once, in order of first appearance; values that are written alike are one. -/
def distinct (vs : List Value) : List Value :=
  vs.foldl (fun kept v =>
    if kept.any (fun k => k.written .alone == v.written .alone) then kept else kept ++ [v]) []

def gathered (make : List Value → Value) (vs : List Value) : Value :=
  match distinct vs with
  | [v] => v
  | vs => make vs

def unionOf (vs : List Value) : Value :=
  gathered .union (vs.flatMap (fun v => v.asType.members))

/-- Whether a bar between the value and another makes a union of the typing module. -/
def isTypingObject : Value → Bool
  | .form _ | .applied _ _ | .union _ | .forward _ => true
  | _ => false

def either (a b : Value) : Value :=
  if a.isTypingObject || b.isTypingObject then unionOf [a, b]
  else gathered .bar ([a, b].flatMap (fun v => v.asType.members))

def barOf : List Value → Value
  | [] => nothing
  | v :: vs => vs.foldl either v

/-- The parts of a `Literal` among the parts of another are its own parts. -/
def literalParts (vs : List Value) : List Value :=
  distinct (vs.flatMap (fun v => match v with
    | .applied "Literal" parts => parts
    | v => [v]))

/-- A type with remarks; remarks on a type with remarks come behind those. -/
def annotated (type : Value) (remarks : List Value) : Value :=
  match type.asType with
  | .applied "Annotated" parts => .applied "Annotated" (parts ++ remarks)
  | t => .applied "Annotated" (t :: remarks)

def withParts (base : Value) (parts : List Value) : Value :=
  match base, parts with
  | .form "Optional", parts => unionOf (parts ++ [nothing])
  | .form "Union", parts => unionOf parts
  | .form "Literal", parts => .applied "Literal" (literalParts parts)
  | .form name, parts => .applied name (asTypes parts)
  | .cls c, type :: remarks =>
      if c = annotatedType then annotated type remarks else .alias c (type :: remarks)
  | .cls c, [] => .alias c []
  | v, _ => v

end Value

end TypedTables.Live

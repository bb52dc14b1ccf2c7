import JavaAnalysis.Binding.Table

/-!
# The built-in types

A small part of the standard library that every file can see without being told where to find it.
The table of bindings of a file starts with these types, followed by their fields and methods.
-/

set_option autoImplicit false

namespace JavaAnalysis

/-- A built-in type; other types are named by their simple names. -/
structure BuiltInType where
  package : String
  name : String
  kind : BindingKind
  superClass : Option String
  interfaces : List String
  /-- Static fields with their types. -/
  fields : List (String × String)
  methods : List String
deriving Repr

namespace BuiltInType

def qualifiedName (t : BuiltInType) : String := t.package ++ "." ++ t.name

/-- A class with all that it can have. -/
def type (package name : String) (superClass : Option String) (interfaces : List String)
    (fields : List (String × String)) (methods : List String) : BuiltInType :=
  ⟨package, name, .classType, superClass, interfaces, fields, methods⟩

/-- A class with nothing but a super class and methods. -/
def subclass (package name superClass : String) (methods : List String) : BuiltInType :=
  ⟨package, name, .classType, some superClass, [], [], methods⟩

def interface (package name : String) (interfaces methods : List String) : BuiltInType :=
  ⟨package, name, .interfaceType, none, interfaces, [], methods⟩

/-- An annotation type. -/
def marker (package name : String) : BuiltInType :=
  ⟨package, name, .annotationType, none, [], [], ["value"]⟩

/-- All built-in types. -/
def all : List BuiltInType := [
  type "java.lang" "Object" none [] []
    ["equals", "hashCode", "toString", "getClass", "notify", "notifyAll", "wait"],
  subclass "java.lang" "String" "Object"
    ["length", "charAt", "isEmpty", "isBlank", "substring", "indexOf", "lastIndexOf",
      "contains", "startsWith", "endsWith", "equalsIgnoreCase", "compareTo", "trim", "strip",
      "toLowerCase", "toUpperCase", "split", "replace", "replaceAll", "format", "valueOf",
      "join", "chars", "toCharArray", "repeat", "lines", "formatted", "matches", "concat",
      "intern"],
  subclass "java.lang" "StringBuilder" "Object"
    ["append", "insert", "length", "reverse", "setLength", "charAt", "deleteCharAt",
      "toString"],
  subclass "java.lang" "Number" "Object" ["intValue", "longValue", "doubleValue", "floatValue"],
  type "java.lang" "Integer" "Number" ["Comparable"] [("MAX_VALUE", "int"), ("MIN_VALUE", "int")]
    ["parseInt", "valueOf", "toString", "compare", "sum", "max", "min", "toHexString"],
  type "java.lang" "Long" "Number" ["Comparable"] [("MAX_VALUE", "long"), ("MIN_VALUE", "long")]
    ["parseLong", "valueOf", "toString", "compare", "sum", "max", "min"],
  type "java.lang" "Double" "Number" ["Comparable"]
    [("MAX_VALUE", "double"), ("MIN_VALUE", "double"), ("NaN", "double")]
    ["parseDouble", "valueOf", "toString", "compare", "isNaN"],
  type "java.lang" "Boolean" "Object" ["Comparable"] [("TRUE", "Boolean"), ("FALSE", "Boolean")]
    ["parseBoolean", "valueOf", "toString", "booleanValue"],
  subclass "java.lang" "Character" "Object"
    ["isDigit", "isLetter", "isWhitespace", "isUpperCase", "toUpperCase", "toLowerCase",
      "valueOf"],
  type "java.lang" "Math" "Object" [] [("PI", "double"), ("E", "double")]
    ["abs", "max", "min", "pow", "sqrt", "floor", "ceil", "round", "random", "floorMod"],
  type "java.lang" "System" "Object" []
    [("out", "PrintStream"), ("err", "PrintStream"), ("in", "InputStream")]
    ["currentTimeMillis", "nanoTime", "arraycopy", "exit", "getProperty", "getenv",
      "lineSeparator"],
  subclass "java.lang" "Thread" "Object"
    ["start", "join", "sleep", "interrupt", "currentThread", "run"],
  subclass "java.lang" "Class" "Object" ["getName", "getSimpleName", "isInstance", "cast"],
  subclass "java.lang" "Enum" "Object" ["name", "ordinal", "values", "valueOf", "compareTo"],
  subclass "java.lang" "Record" "Object" [],
  subclass "java.lang" "Void" "Object" [],
  subclass "java.lang" "Throwable" "Object"
    ["getMessage", "getCause", "printStackTrace", "getStackTrace", "addSuppressed",
      "initCause"],
  subclass "java.lang" "Exception" "Throwable" [],
  subclass "java.lang" "Error" "Throwable" [],
  subclass "java.lang" "RuntimeException" "Exception" [],
  subclass "java.lang" "IllegalArgumentException" "RuntimeException" [],
  subclass "java.lang" "IllegalStateException" "RuntimeException" [],
  subclass "java.lang" "NullPointerException" "RuntimeException" [],
  subclass "java.lang" "UnsupportedOperationException" "RuntimeException" [],
  subclass "java.lang" "IndexOutOfBoundsException" "RuntimeException" [],
  subclass "java.lang" "InterruptedException" "Exception" [],
  subclass "java.lang" "CloneNotSupportedException" "Exception" [],
  interface "java.lang" "Runnable" [] ["run"],
  interface "java.lang" "Iterable" [] ["iterator", "forEach"],
  interface "java.lang" "Comparable" [] ["compareTo"],
  interface "java.lang" "CharSequence" [] ["length", "charAt", "subSequence"],
  interface "java.lang" "AutoCloseable" [] ["close"],
  interface "java.lang" "Cloneable" [] [],
  marker "java.lang" "Override",
  marker "java.lang" "Deprecated",
  marker "java.lang" "SuppressWarnings",
  marker "java.lang" "FunctionalInterface",
  marker "java.lang" "SafeVarargs",
  interface "java.util" "Collection" ["Iterable"]
    ["add", "addAll", "clear", "contains", "containsAll", "isEmpty", "iterator", "remove",
      "removeAll", "removeIf", "retainAll", "size", "stream", "toArray", "forEach", "of",
      "copyOf"],
  interface "java.util" "List" ["Collection"] ["get", "set", "indexOf", "subList", "sort"],
  interface "java.util" "Set" ["Collection"] [],
  interface "java.util" "Iterator" [] ["hasNext", "next", "remove"],
  interface "java.util" "Map" []
    ["get", "put", "putAll", "remove", "containsKey", "containsValue", "keySet", "values",
      "entrySet", "size", "isEmpty", "getOrDefault", "computeIfAbsent", "merge", "forEach",
      "of", "clear"],
  interface "java.util" "Comparator" [] ["compare", "comparing", "reversed", "thenComparing"],
  type "java.util" "ArrayList" "Object" ["List"] [] ["ensureCapacity", "trimToSize"],
  type "java.util" "LinkedList" "Object" ["List"] [] ["addFirst", "addLast", "poll", "peek"],
  type "java.util" "HashMap" "Object" ["Map"] [] [],
  type "java.util" "HashSet" "Object" ["Set"] [] [],
  subclass "java.util" "Collections" "Object"
    ["emptyList", "emptyMap", "emptySet", "unmodifiableList", "sort", "singletonList",
      "reverse"],
  subclass "java.util" "Arrays" "Object"
    ["asList", "sort", "fill", "copyOf", "stream", "toString", "equals"],
  subclass "java.util" "Objects" "Object"
    ["equals", "hash", "hashCode", "requireNonNull", "isNull", "nonNull", "toString"],
  subclass "java.util" "Optional" "Object"
    ["of", "ofNullable", "empty", "isPresent", "isEmpty", "get", "orElse", "orElseGet",
      "orElseThrow", "map", "flatMap", "filter", "ifPresent"],
  subclass "java.util" "Scanner" "Object"
    ["nextLine", "nextInt", "hasNext", "hasNextLine", "close"],
  interface "java.util.function" "Function" [] ["apply", "andThen", "compose", "identity"],
  interface "java.util.function" "BiFunction" [] ["apply", "andThen"],
  interface "java.util.function" "Supplier" [] ["get"],
  interface "java.util.function" "Consumer" [] ["accept", "andThen"],
  interface "java.util.function" "Predicate" [] ["test", "and", "or", "negate", "not"],
  interface "java.io" "Serializable" [] [],
  interface "java.io" "Closeable" ["AutoCloseable"] [],
  subclass "java.io" "IOException" "Exception" [],
  subclass "java.io" "UncheckedIOException" "RuntimeException" [],
  subclass "java.io" "InputStream" "Object" ["read", "close"],
  subclass "java.io" "PrintStream" "Object" ["println", "print", "printf", "format", "flush"]]

/-- The place of a type in the list by its simple name. -/
def find? (name : String) : Option BindingId :=
  (all.findIdx? fun t => t.name == name).map BindingId.mk

/-- What is known of the type itself. -/
def binding (t : BuiltInType) : Binding :=
  let plain := Binding.plain t.kind t.name .builtIn none (.ofList [.public])
  let superClass := t.superClass.bind find?
  let interfaces := t.interfaces.filterMap find?
  { plain with qualifiedName := some t.qualifiedName, superClass, interfaces }

/-- What is known of the members of the type, which has the number `id`. -/
def memberBindings (t : BuiltInType) (id : BindingId) : List Binding :=
  let constant := ModifierSet.ofList [.public, .static, .final]
  let fields := t.fields.map fun f =>
    let plain := Binding.plain .field f.1 .builtIn (some id) constant
    { plain with typeName := some f.2, typeBinding := find? f.2 }
  let methods := t.methods.map fun m =>
    Binding.plain .method m .builtIn (some id) (.ofList [.public])
  fields ++ methods

end BuiltInType

/-- There are built-in types in the package. -/
def isKnownPackage (package : String) : Bool := BuiltInType.all.any fun t => t.package == package

/-- The table of the built-in bindings. -/
def Bindings.universe : Bindings :=
  let types := BuiltInType.all.map (·.binding)
  let members := BuiltInType.all.zipIdx.flatMap fun p => p.1.memberBindings ⟨p.2⟩
  ⟨(types ++ members).toArray⟩

end JavaAnalysis

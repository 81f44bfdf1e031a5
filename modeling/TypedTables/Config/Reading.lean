import TypedTables.Config.Basic
import TypedTables.Data
import TypedTables.Text.Blank
import TypedTables.Text.WordChar

/-!
Reading a configuration from plain data. Each field is checked on its own and all faults are
reported together, in the order of the fields; only if there are none, the fields are checked
against each other. Unknown fields are ignored.
-/

namespace TypedTables

open Text

inductive ConfigFault where
  | notAModel (name : String)
  | notAString
  | notAList
  | notALevel
  | notABoolean
  | unclearBoolean
  | notAnInteger
  | fractional
  | notFinite
  | unclearInteger
  | hugeInteger
  | below (bound : Int)
  | above (bound : Int)
  | rejected (reason : String)
  deriving DecidableEq, Repr

namespace ConfigFault

def kind : ConfigFault → String
  | .notAModel _ => "model_type"
  | .notAString => "string_type"
  | .notAList => "list_type"
  | .notALevel => "literal_error"
  | .notABoolean => "bool_type"
  | .unclearBoolean => "bool_parsing"
  | .notAnInteger => "int_type"
  | .fractional => "int_from_float"
  | .notFinite => "finite_number"
  | .unclearInteger => "int_parsing"
  | .hugeInteger => "int_parsing_size"
  | .below _ => "greater_than_equal"
  | .above _ => "less_than_equal"
  | .rejected _ => "value_error"

def message : ConfigFault → String
  | .notAModel name => s!"Input should be a valid dictionary or instance of {name}"
  | .notAString => "Input should be a valid string"
  | .notAList => "Input should be a valid list"
  | .notALevel => "Input should be 'DEBUG', 'INFO', 'WARNING' or 'ERROR'"
  | .notABoolean => "Input should be a valid boolean"
  | .unclearBoolean => "Input should be a valid boolean, unable to interpret input"
  | .notAnInteger => "Input should be a valid integer"
  | .fractional => "Input should be a valid integer, got a number with a fractional part"
  | .notFinite => "Input should be a finite number"
  | .unclearInteger =>
      "Input should be a valid integer, unable to parse string as an integer"
  | .hugeInteger => "Unable to parse input string as an integer, exceeded maximum size"
  | .below bound => s!"Input should be greater than or equal to {bound}"
  | .above bound => s!"Input should be less than or equal to {bound}"
  | .rejected reason => s!"Value error, {reason}"

end ConfigFault

inductive DataStep where
  | key (name : String)
  | item (index : Nat)
  deriving DecidableEq, Repr

def DataStep.text : DataStep → String
  | .key name => name
  | .item index => toString index

structure ConfigError where
  place : List DataStep
  fault : ConfigFault
  deriving DecidableEq, Repr

def ConfigError.placeText (e : ConfigError) : String :=
  String.intercalate "." (e.place.map DataStep.text)

abbrev Checked (α : Type) := Except (List ConfigError) α

namespace Checked

def fault {α : Type} (f : ConfigFault) : Checked α := .error [⟨[], f⟩]

def and {α β : Type} : Checked α → Checked β → Checked (α × β)
  | .ok a, .ok b => .ok (a, b)
  | .ok _, .error es => .error es
  | .error es, .ok _ => .error es
  | .error es, .error fs => .error (es ++ fs)

def inside {α : Type} (step : DataStep) (value : Checked α) : Checked α :=
  value.mapError (fun es => es.map (fun e => { e with place := step :: e.place }))

def ensure {α : Type} (test : α → Bool) (reason : α → String) (value : Checked α) : Checked α :=
  value.bind (fun a => if test a then .ok a else fault (.rejected (reason a)))

end Checked

namespace Config

def field {α : Type} (d : Data) (key : String) (default : α) (read : Data → Checked α) :
    Checked α :=
  match d.get? key with
  | none => .ok default
  | some value => (read value).inside (.key key)

def readString : Data → Checked String
  | .text s => .ok s
  | _ => .fault .notAString

def readString? : Data → Checked (Option String)
  | .null => .ok none
  | d => (readString d).map some

def readStrings (index : Nat) : List Data → Checked (List String)
  | [] => .ok []
  | d :: ds =>
      (((readString d).inside (.item index)).and (readStrings (index + 1) ds)).map
        (fun (s, rest) => s :: rest)

def readStringList : Data → Checked (List String)
  | .list items => readStrings 0 items
  | _ => .fault .notAList

def yesWords : List String := ["1", "on", "t", "true", "y", "yes"]

def noWords : List String := ["0", "off", "f", "false", "n", "no"]

def readBool : Data → Checked Bool
  | .bool b => .ok b
  | .int n => if n = 0 then .ok false else if n = 1 then .ok true else .fault .unclearBoolean
  | .float x => if x == 0 then .ok false else if x == 1 then .ok true else .fault .notABoolean
  | .text s =>
      let word := String.ofList (s.toList.map Char.toLower)
      if word ∈ yesWords then .ok true
      else if word ∈ noWords then .ok false
      else .fault .unclearBoolean
  | _ => .fault .notABoolean

def isAsciiDigit (c : Char) : Bool := '0' ≤ c && c ≤ '9'

def digitsValue (cs : List Char) : Nat :=
  cs.foldl (fun n c => n * 10 + (c.toNat - 48)) 0

/-- A number without leading zeros, with a minus sign at most. -/
def plainInteger? (cs : List Char) : Option Int :=
  let (negative, digits) := match cs with
    | '-' :: rest => (true, rest)
    | _ => (false, cs)
  if digits.isEmpty || !digits.all isAsciiDigit then none
  else if digits.head? = some '0' && digits.length ≠ 1 then none
  else some (if negative then -(digitsValue digits : Int) else digitsValue digits)

def isSpace (c : Char) : Bool := isBlank c && !(28 ≤ c.toNat && c.toNat ≤ 31)

/-- A number without the zeros and underscores at its start, up to its last character or the one
before a point. -/
def dropZeros? : List Char → Option (List Char)
  | [] => none
  | [c] => some [c]
  | c :: '.' :: cs => some (c :: '.' :: cs)
  | c :: d :: cs =>
      if c = '0' || c = '_' then dropZeros? (d :: cs)
      else if '1' ≤ c && c ≤ '9' then some (c :: d :: cs)
      else none

def withoutLeadingZeros? (cs : List Char) : Option (List Char) :=
  match cs with
  | [] => none
  | c :: _ =>
      if c = '-' || ('1' ≤ c && c ≤ '9') then some cs
      else if c = '0' then dropZeros? cs
      else none

def withoutFraction (cs : List Char) : List Char :=
  match cs.dropWhile (· ≠ '.') with
  | _ :: fraction => if fraction.all (· = '0') then cs.takeWhile (· ≠ '.') else cs
  | [] => cs

def hasDoubleUnderscore : List Char → Bool
  | '_' :: '_' :: _ => true
  | _ :: cs => hasDoubleUnderscore cs
  | [] => false

def withoutUnderscores (cs : List Char) : List Char :=
  if cs.head? = some '_' || cs.getLast? = some '_' || hasDoubleUnderscore cs then cs
  else cs.filter (· ≠ '_')

/-- The number that a text holds, with blanks around it, a plus sign, leading zeros, a fraction of
zeros, and underscores between digits. -/
def looseInteger? (cs : List Char) : Option Int := do
  let cs := ((cs.dropWhile isSpace).reverse.dropWhile isSpace).reverse
  let cs ← match cs with
    | '+' :: '-' :: _ => none
    | '+' :: rest => some rest
    | _ => some cs
  let cs ← withoutLeadingZeros? cs
  plainInteger? (withoutUnderscores (withoutFraction cs))

def longestInteger : Nat := 4300

def readIntegerText (s : String) : Checked Int :=
  match plainInteger? s.toList with
  | some n => if longestInteger < s.length then .fault .hugeInteger else .ok n
  | none =>
      match looseInteger? s.toList with
      | some n => .ok n
      | none => .fault .unclearInteger

/-- The whole number that a float is; it has to fit into 64 bits. -/
def readIntegerFloat (x : Float) : Checked Int :=
  if x.isNaN || x.isInf then .fault .notFinite
  else if x != x.floor then .fault .fractional
  else if -9223372036854775808 < x && x < 9223372036854775808 then .ok x.toInt64.toInt
  else .fault .hugeInteger

def readInteger : Data → Checked Int
  | .bool b => .ok (if b then 1 else 0)
  | .int n => .ok n
  | .float x => readIntegerFloat x
  | .text s => readIntegerText s
  | _ => .fault .notAnInteger

def readBetween (low high : Int) (d : Data) : Checked Int :=
  (readInteger d).bind (fun n =>
    if n < low then Checked.fault (.below low)
    else if high < n then Checked.fault (.above high)
    else .ok n)

def readModel {α : Type} (name : String) (read : Data → Checked α) (d : Data) : Checked α :=
  match d with
  | .map _ => read d
  | _ => .fault (.notAModel name)

def readLevel : Data → Checked LogLevel
  | .text "DEBUG" => .ok .debug
  | .text "INFO" => .ok .info
  | .text "WARNING" => .ok .warning
  | .text "ERROR" => .ok .error
  | _ => .fault .notALevel

def readLogging (d : Data) : Checked LoggingConfig :=
  let base : LoggingConfig := {}
  ((field d "level" base.level readLevel).and (field d "format" base.format readString)).map
    (fun (level, format) => ⟨level, format⟩)

def readWatch (d : Data) : Checked WatchConfig :=
  let base : WatchConfig := {}
  (field d "debounce_ms" base.debounceMs (readBetween 50 60000)).map WatchConfig.mk

def isIdentifier : List Char → Bool
  | [] => false
  | c :: cs => isNameStart c && cs.all isWord

def withoutLastLineFeed (cs : List Char) : List Char :=
  if cs.getLast? = some '\n' then cs.dropLast else cs

/-- A dotted name; one line feed after it is let pass. -/
def isDottedName (cs : List Char) : Bool :=
  (splitOn '.' (withoutLastLineFeed cs)).all isIdentifier

def isSuffix (s : String) : Bool :=
  match s.toList with
  | '.' :: cs => isDottedName cs
  | _ => false

def isExtension (s : String) : Bool :=
  s.toList.head? = some '.' && 2 ≤ s.length

def readDotted (d : Data) : Checked String :=
  (readString d).ensure (fun s => isDottedName s.toList)
    (fun s => s!"'{s}' is not a dotted Python name")

def readSuffix (d : Data) : Checked String :=
  (readString d).ensure isSuffix (fun _ => "package_suffix must look like '.generated'")

def readExtension (d : Data) : Checked String :=
  (readString d).ensure isExtension (fun _ => "file_extension must start with '.'")

def readRoots (d : Data) : Checked (List String) :=
  (readStringList d).ensure (fun roots => !roots.isEmpty)
    (fun _ => "source_roots must not be empty")

def readFields (d : Data) : Checked Config :=
  let base : Config := {}
  (field d "source_roots" base.sourceRoots readRoots
    |>.and (field d "output_dir" base.outputDir readString)
    |>.and (field d "markers_namespace" base.markersNamespace readDotted)
    |>.and (field d "table_marker" base.tableMarker readDotted)
    |>.and (field d "package_suffix" base.packageSuffix readSuffix)
    |>.and (field d "default_package" base.defaultPackage readDotted)
    |>.and (field d "file_extension" base.fileExtension readExtension)
    |>.and (field d "template_dir" base.templateDir readString?)
    |>.and (field d "ignore_file" base.ignoreFile readString)
    |>.and (field d "fail_on_default_package" base.failOnDefaultPackage readBool)
    |>.and (field d "logging" base.logging (readModel "LoggingConfig" readLogging))
    |>.and (field d "watch" base.watch (readModel "WatchConfig" readWatch))).map
    (fun (((((((((((roots, output), markers), table), suffix), package), extension), templates),
        ignore), fail), logging), watch) =>
      { sourceRoots := roots
        outputDir := output
        markersNamespace := markers
        tableMarker := table
        packageSuffix := suffix
        defaultPackage := package
        fileExtension := extension
        templateDir := templates
        ignoreFile := ignore
        failOnDefaultPackage := fail
        logging := logging
        watch := watch })

def markersFit (c : Config) : Bool :=
  (c.markersNamespace ++ ".").toList.isPrefixOf c.tableMarker.toList

def ofData (d : Data) : Checked Config :=
  (readModel "CodegenConfig" readFields d).ensure markersFit
    (fun _ => "table_marker must be inside markers_namespace")

end Config

end TypedTables

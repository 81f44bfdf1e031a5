import TypedTables.Source.Line

/-!
Statements of a source file, as far as a schema can depend on them: classes with their decorators
and bodies, imports, annotated names, and blocks around other statements.
-/

namespace TypedTables.Source

/-- A decorator: the text of its expression and, if that is a call, the text of what is called. -/
structure Decorator where
  expression : String
  callee : Option String
  deriving DecidableEq, Repr

def Decorator.target (d : Decorator) : String :=
  d.callee.getD d.expression

/-- An imported name as written, and the name it is bound to if that is given. -/
structure ImportedName where
  path : String
  boundAs : Option String
  deriving DecidableEq, Repr

inductive Statement where
  | classDef (decorators : List Decorator) (name : String) (body : List Statement)
  | functionDef
  | importModules (names : List ImportedName)
  | importFrom (source : String) (names : List ImportedName)
  | annotated (name : String) (type : String) (offset : Nat)
  | block (body : List Statement)
  | other

def keywords : List String := [
  "False", "None", "True", "and", "as", "assert", "async", "await", "break", "class", "continue",
  "def", "del", "elif", "else", "except", "finally", "for", "from", "global", "if", "import", "in",
  "is", "lambda", "nonlocal", "not", "or", "pass", "raise", "return", "try", "while", "with",
  "yield"]

/-- The keywords that are constants and may stand where a name may. -/
def constants : List String := ["False", "None", "True"]

def blockWords : List String := [
  "if", "elif", "else", "for", "while", "try", "except", "finally", "with", "async"]

def Token.isName (t : Token) : Bool :=
  t.kind = .word && !keywords.contains t.text

def Token.opens (t : Token) : Bool :=
  t.isMark '(' || t.isMark '[' || t.isMark '\x7b'

def Token.closes (t : Token) : Bool :=
  t.isMark ')' || t.isMark ']' || t.isMark '\x7d'

/-- Cuts tokens at the first one that satisfies `stop` outside of all brackets and of the
parameters of function expressions; the last two parts are empty if there is none. -/
def cutAt (stop : Token → Bool) (depth lambdas : Nat) :
    List Token → List Token × Option Token × List Token
  | [] => ([], none, [])
  | t :: ts =>
      if depth = 0 && lambdas = 0 && stop t then ([], some t, ts)
      else
        let depth' := if t.opens then depth + 1 else if t.closes then depth - 1 else depth
        let lambdas' :=
          if depth = 0 && t.isWord "lambda" then lambdas + 1
          else if depth = 0 && t.isMark ':' then lambdas - 1
          else lambdas
        let (before, found, after) := cutAt stop depth' lambdas' ts
        (t :: before, found, after)

def cutAll (sep : Char) (depth : Nat) : List Token → List (List Token)
  | [] => [[]]
  | t :: ts =>
      if depth = 0 && t.isMark sep then [] :: cutAll sep depth ts
      else
        let depth' := if t.opens then depth + 1 else if t.closes then depth - 1 else depth
        match cutAll sep depth' ts with
        | [] => [[t]]
        | part :: parts => (t :: part) :: parts

def ImportedName.ofTokens? (ts : List Token) : Option ImportedName :=
  let path := ts.takeWhile (fun t => !t.isWord "as")
  if path.isEmpty then none
  else match ts.dropWhile (fun t => !t.isWord "as") with
    | _ :: name :: _ => some ⟨Token.slice path, some name.text⟩
    | _ => some ⟨Token.slice path, none⟩

def importedNames (ts : List Token) : List ImportedName :=
  let bare := ts.filter (fun t => !t.isMark '(' && !t.isMark ')')
  (cutAll ',' 0 bare).filterMap ImportedName.ofTokens?

/-- An import from a source. Importing everything binds nothing that is known, and the language's
own switches are no modules. -/
def importFromTokens (ts : List Token) : Statement :=
  let source := ts.takeWhile (fun t => !t.isWord "import")
  let names := (ts.dropWhile (fun t => !t.isWord "import")).drop 1
  if Token.slice source = "__future__" then .other
  else if names.head?.any (fun t => t.isMark '*') then .importFrom (Token.slice source) []
  else .importFrom (Token.slice source) (importedNames names)

/-- The words that start statements of their own elsewhere and do not start a generic type. -/
def statementWords : List String := ["print", "exec", "match"]

/-- Where a reader of a type stands: before it, inside the brackets behind its name, behind them,
or behind a dot that follows them. -/
inductive TypePlace where
  | start
  | inside (depth : Nat)
  | behind
  | member
  deriving DecidableEq, Repr

/-- The tokens of a type. A name with brackets is a generic type, which goes on with members and
with alternatives but with nothing else; what starts otherwise is an expression to its end. -/
def typeTokens : TypePlace → List Token → List Token
  | _, [] => []
  | .start, t :: ts =>
      let generic := t.isName && !statementWords.contains t.text && ts.head?.any (·.isMark '[')
      if generic then t :: typeTokens (.inside 0) ts else t :: ts
  | .inside depth, t :: ts =>
      let depth' := if t.opens then depth + 1 else if t.closes then depth - 1 else depth
      t :: typeTokens (if depth' = 0 then .behind else .inside depth') ts
  | .behind, t :: ts =>
      if t.isMark '.' then t :: typeTokens .member ts
      else if t.isMark '|' then t :: typeTokens .start ts
      else []
  | .member, t :: ts => t :: typeTokens .behind ts

def simpleStatement (ts : List Token) : Statement :=
  match ts with
  | [] => .other
  | first :: rest =>
      if first.isWord "import" then .importModules (importedNames rest)
      else if first.isWord "from" then importFromTokens rest
      else match rest with
        | colon :: type =>
            if first.isName && colon.isMark ':' then
              let (type, _, _) := cutAt (fun t => t.isMark '=') 0 0 type
              .annotated first.text (Token.slice (typeTokens .start type)) first.offset
            else .other
        | [] => .other

def simpleStatements (ts : List Token) : List Statement :=
  ((cutAll ';' 0 ts).filter (fun part => !part.isEmpty)).map simpleStatement

/-- Whether tokens outside of brackets are those of an atom with trailers: no operators and no
keywords. -/
def isPrimary (depth : Nat) : List Token → Bool
  | [] => true
  | t :: ts =>
      let plain :=
        t.opens || t.closes || depth ≠ 0 || t.isMark '.' || t.isName || t.kind = .number ||
          t.kind = .string || constants.contains t.text
      let depth' := if t.opens then depth + 1 else if t.closes then depth - 1 else depth
      plain && isPrimary depth' ts

/-- Cuts off a bracketed group at the end of reversed tokens; gives the reversed rest. -/
def dropGroup (depth : Nat) : List Token → List Token
  | [] => []
  | t :: ts =>
      if t.closes then dropGroup (depth + 1) ts
      else if t.opens then if depth ≤ 1 then ts else dropGroup (depth - 1) ts
      else dropGroup depth ts

def calleeTokens? (ts : List Token) : Option (List Token) :=
  match ts.reverse with
  | [] => none
  | last :: _ =>
      if last.isMark ')' && isPrimary 0 ts then
        match (dropGroup 0 ts.reverse).reverse with
        | [] => none
        | callee => some callee
      else none

def Decorator.ofTokens (ts : List Token) : Decorator :=
  ⟨Token.slice ts, (calleeTokens? ts).map Token.slice⟩

def inlineBody (ts : List Token) : List Token :=
  (cutAt (fun t => t.isMark ':') 0 0 ts).2.2

def bodyOr (ts : List Token) (below : List Statement) : List Statement :=
  match inlineBody ts with
  | [] => below
  | inline => simpleStatements inline

mutual

/-- The statements of one line and the lines below it. The decorators are those of the lines
before; `inMatch` holds for the lines directly below a `match` header. -/
def LineTree.statements (decorators : List Decorator) (inMatch : Bool) : LineTree → List Statement
  | .node ts below =>
      match ts with
      | [] => []
      | first :: rest =>
          if first.isWord "class" && rest.head?.any (fun t => t.kind = .word) then
            let name := (rest.head?.map Token.text).getD ""
            [.classDef decorators name (bodyOr ts (statementsOf [] false below))]
          else if first.isWord "def" ||
              (first.isWord "async" && rest.head?.any (fun t => t.isWord "def")) then
            [.functionDef]
          else if !below.isEmpty || inMatch || blockWords.contains first.text then
            let clauses := first.isWord "match"
            [.block (bodyOr ts (statementsOf [] clauses below))]
          else simpleStatements ts

/-- The statements of nested lines; a line that starts with an at sign decorates the next one. -/
def statementsOf (decorators : List Decorator) (inMatch : Bool) :
    List LineTree → List Statement
  | [] => []
  | tree :: trees =>
      match tree with
      | .node (first :: rest) _ =>
          if first.isMark '@' then
            statementsOf (decorators ++ [Decorator.ofTokens rest]) inMatch trees
          else tree.statements decorators inMatch ++ statementsOf [] inMatch trees
      | .node [] _ => statementsOf [] inMatch trees

end

def parse (bytes : List UInt8) : List Statement :=
  statementsOf [] false (nest (linesOf (tokens bytes)))

end TypedTables.Source

import ClHost.Kernel.Basic
import ClHost.Template.Expression

/-!
# Filling in templates of kernels

A renderer fills in the texts of a template with the values of its names, and reads lists of arguments in which types
may be called by aliases.
-/

namespace ClHost

/-! ## Templates with directives -/

namespace Template

open String Text

inductive Part where
  | text (s : String)
  | output (source : String) (filters : List String)
  | control (line : String)
  | code (source : String)

def malformed : Fault := .bare .templateSyntax

/-- Splits off the text up to a closing sign outside of brackets and quotes, after the opening one. -/
def takeExpression : Nat → List Char → List Char → Option (String × Bool × List Char)
  | _, _, [] => none
  | 0, acc, '\x7d' :: cs => some (ofList acc.reverse, false, cs)
  | 0, acc, '|' :: cs => some (ofList acc.reverse, true, cs)
  | depth, acc, c :: cs =>
    if "([\x7b".toList.contains c then takeExpression (depth + 1) (c :: acc) cs
    else if ")]\x7d".toList.contains c then takeExpression (depth - 1) (c :: acc) cs
    else takeExpression depth (c :: acc) cs

def takeUntil (mark : List Char) : List Char → List Char → Option (String × List Char)
  | acc, [] => if mark.isEmpty then some (ofList acc.reverse, []) else none
  | acc, c :: cs =>
    if mark.isPrefixOf (c :: cs) then some (ofList acc.reverse, (c :: cs).drop mark.length)
    else takeUntil mark (c :: acc) cs

def takeLine : List Char → List Char → String × List Char
  | acc, [] => (ofList acc.reverse, [])
  | acc, '\\' :: '\n' :: cs => takeLine (' ' :: acc) cs
  | acc, '\n' :: cs => (ofList acc.reverse, cs)
  | acc, c :: cs => takeLine (c :: acc) cs

variable (s : String)

def filterNames : List String := (splitAt ',' s).map strip

/-- Reads the pieces of a template. -/
def parts : Nat → Bool → List Char → Result (List Part)
  | 0, _, _ => .ok []
  | _, _, [] => .ok []
  | fuel + 1, lineStart, cs => do
    let blanks := cs.takeWhile (fun c => c == ' ' || c == '\t')
    let after := cs.dropWhile (fun c => c == ' ' || c == '\t')
    match lineStart, after with
    | true, '%' :: '%' :: rest => return .text (ofList (blanks ++ ['%'])) :: (← parts fuel false rest)
    | true, '%' :: rest =>
      let (line, rest) := takeLine [] rest
      return .control (strip line) :: (← parts fuel true rest)
    | true, '#' :: '#' :: rest => parts fuel true (takeLine [] rest).2
    | _, _ =>
      let upTo (mark : String) (cs : List Char) : Result (String × List Char) :=
        wanted .templateSyntax (takeUntil mark.toList [] cs)
      match cs with
      | '$' :: '\x7b' :: rest =>
        let (source, filtered, rest) ← wanted .templateSyntax (takeExpression 0 [] rest)
        if !filtered then return .output source [] :: (← parts fuel false rest)
        let (filters, rest) ← upTo "\x7d" rest
        return .output source (filterNames filters) :: (← parts fuel false rest)
      | '\\' :: '\n' :: rest => parts fuel true rest
      | '<' :: '%' :: rest =>
        if "doc>".toList.isPrefixOf rest then parts fuel false (← upTo "</%doc>" (rest.drop 4)).2
        else if "text>".toList.isPrefixOf rest then
          let (s, rest) ← upTo "</%text>" (rest.drop 5)
          return .text s :: (← parts fuel false rest)
        else if (rest.head?.map isWordChar).getD false then .error malformed
        else
          let (source, rest) ← upTo "%>" (if rest.head? == some '!' then rest.drop 1 else rest)
          return .code source :: (← parts fuel false rest)
      | c :: rest => return .text (singleton c) :: (← parts fuel (c == '\n') rest)
      | [] => return []

inductive Node where
  | text (s : String)
  | output (e : Expression) (filters : List String)
  | assign (name : String) (e : Expression)
  | choice (condition : Expression) (yes no : List Node)
  | loop (names : List String) (values : Expression) (body : List Node)

def splitControl (line : String) : String × String :=
  let word := line.toList.takeWhile isWordChar
  (ofList word, strip (ofList (line.toList.drop word.length)))

def beforeColon : Result String :=
  if Text.endsWith s ":" then .ok (ofList (s.toList.dropLast)) else .error malformed

def needExpression : Result Expression :=
  wanted .expressionSyntax (Expression.read (Text.strip s))

def readLoop : Result (List String × Expression) := do
  let (names, values) ← wanted .expressionSyntax (takeUntil " in ".toList [] (← beforeColon s).toList)
  let names := (splitAt ',' names).map fun n => ofList ((strip n).toList.filter (fun c => c != '(' && c != ')'))
  return (names.map strip, ← needExpression (ofList values))

def readCode (source : String) : Result (List Node) := do
  let statements := ((splitAt '\n' source).flatMap (splitAt ';')).map strip
  (statements.filter (fun s => !s.isEmpty && !Text.startsWith s "#" && s != "pass")).mapM fun s => do
    let (name, value) ← wanted .expressionSyntax (takeUntil ['='] [] s.toList)
    let name := strip name
    let e ← needExpression (ofList value)
    match name.toList.getLast? with
    | some sign =>
      if "+-*".toList.contains sign then
        let target := strip (ofList name.toList.dropLast)
        return .assign target (.binary (singleton sign) (.name target) e)
      else if name.toList.all isWordChar then return .assign name e
      else .error (.bare .expressionSyntax)
    | none => .error (.bare .expressionSyntax)

mutual

def readNodes : Nat → List Part → Result (List Node × List Part)
  | 0, ps => .ok ([], ps)
  | _, [] => .ok ([], [])
  | fuel + 1, .text s :: ps => do
    let (ns, rest) ← readNodes fuel ps
    return (.text s :: ns, rest)
  | fuel + 1, .output source filters :: ps => do
    let e ← needExpression source
    let (ns, rest) ← readNodes fuel ps
    return (.output e filters :: ns, rest)
  | fuel + 1, .code source :: ps => do
    let code ← readCode source
    let (ns, rest) ← readNodes fuel ps
    return (code ++ ns, rest)
  | fuel + 1, .control line :: ps => do
    match splitControl line with
    | ("for", header) =>
      let (names, values) ← readLoop header
      let (body, rest) ← readNodes fuel ps
      match rest with
      | .control "endfor" :: rest =>
        let (ns, rest) ← readNodes fuel rest
        return (.loop names values body :: ns, rest)
      | _ => .error malformed
    | ("if", header) =>
      let (node, rest) ← readChoice fuel header ps
      let (ns, rest) ← readNodes fuel rest
      return (node :: ns, rest)
    | ("elif", _) | ("else", _) | ("endif", _) | ("endfor", _) => return ([], .control line :: ps)
    | _ => .error malformed

def readChoice : Nat → String → List Part → Result (Node × List Part)
  | 0, _, _ => .error malformed
  | fuel + 1, header, ps => do
    let condition ← needExpression (← beforeColon header)
    let (yes, rest) ← readNodes fuel ps
    match rest with
    | .control line :: rest =>
      match splitControl line with
      | ("elif", header) =>
        let (no, rest) ← readChoice fuel header rest
        return (.choice condition yes [no], rest)
      | ("else", _) =>
        let (no, rest) ← readNodes fuel rest
        match rest with
        | .control "endif" :: rest => return (.choice condition yes no, rest)
        | _ => .error malformed
      | ("endif", _) => return (.choice condition yes [], rest)
      | _ => .error malformed
    | _ => .error malformed

end

mutual

def Node.targets : Node → List String
  | .assign name _ => [name]
  | .choice _ yes no => Node.allTargets yes ++ Node.allTargets no
  | .loop names _ body => names ++ Node.allTargets body
  | _ => []

def Node.allTargets : List Node → List String
  | [] => []
  | n :: ns => n.targets ++ Node.allTargets ns

end

mutual

def Node.names : Node → List String
  | .text _ => []
  | .output e _ | .assign _ e => e.names
  | .choice e yes no => e.names ++ Node.allNames yes ++ Node.allNames no
  | .loop _ e body => e.names ++ Node.allNames body

def Node.allNames : List Node → List String
  | [] => []
  | n :: ns => n.names ++ Node.allNames ns

end

def applyFilter (s : String) : String → Result String
  | "trim" => .ok (strip s)
  | "n" | "str" | "unicode" => .ok s
  | "h" => .ok ([("&", "&amp;"), (">", "&gt;"), ("<", "&lt;"), ("\"", "&#34;"), ("'", "&#39;")].foldl
      (fun s (p : String × String) => replaceAll s p.1 p.2) s)
  | _ => .error (.bare .unknownName)

def Bindings.set (b : Bindings) (name : String) (d : Datum) : Bindings :=
  (name, d) :: List.filter (fun e => e.1 != name) b

def Bindings.setNames (b : Bindings) (names : List String) (d : Datum) : Result Bindings :=
  match names with
  | [n] => .ok (b.set n d)
  | ns => do
    let ds ← taken d.items?
    if ds.length == ns.length then return (ns.zip ds).foldl (fun b e => b.set e.1 e.2) b else .error (.bare .value)

mutual

def Node.render (state : Bindings × String) : Node → Result (Bindings × String)
  | .text s => .ok (state.1, state.2 ++ s)
  | .output e filters => do
    let d ← e.evaluate state.1
    return (state.1, state.2 ++ (← filters.foldlM applyFilter d.shownText))
  | .assign name e => do return (state.1.set name (← e.evaluate state.1), state.2)
  | .choice e yes no => do
    if (← e.evaluate state.1).truth then Node.renderAll state yes else Node.renderAll state no
  | .loop names e body => do
    (← taken (← e.evaluate state.1).items?).foldlM (fun state item => do
      Node.renderAll (← state.1.setNames names item, state.2) body) state

def Node.renderAll (state : Bindings × String) : List Node → Result (Bindings × String)
  | [] => .ok state
  | n :: ns => do Node.renderAll (← n.render state) ns

end

def renderDirectives (b : Bindings) (text : String) : Result String := do
  let ps ← parts text.length true text.toList
  let (nodes, rest) ← readNodes (2 * ps.length + 2) ps
  if !rest.isEmpty then .error malformed
  let known := Node.allTargets nodes ++ functionNames ++ List.map Prod.fst b
  if (Node.allNames nodes).any (fun n => !known.contains n) then .error (.bare .unknownName)
  return (← Node.renderAll (b, "") nodes).2

end Template

/-! ## How a device lays out structures -/

namespace ElementType

mutual

def depth : ElementType → Nat
  | record fields _ _ => depthOfFields fields + 1
  | _ => 0

def depthOfFields : FieldList → Nat
  | .nil => 0
  | .cons _ _ type rest => max type.depth (depthOfFields rest)

end

/-- The parts of a type by all their names, in the order of their offsets. -/
def namedParts? (t : ElementType) : Option (List Field) :=
  match t with
  | vector base lanes =>
    some (((laneNames lanes).zip (laneTitles lanes)).zipIdx.flatMap fun ((name, title), i) =>
      let part (n : String) : Field := ⟨n, i * base.size, number base⟩
      part name :: title.toList.map part)
  | t => t.fields?.map fun fs => fs.mergeSort fun a b => decide (a.offset ≤ b.offset)

end ElementType

def layoutSource (name : String) (fields : List Field) (before declaration : String) : String :=
  let reports := fields.zipIdx.map fun (f, i) =>
    "result[" ++ toString (i + 1) ++ "] = pycl_offsetof(" ++ name ++ ", " ++ f.name ++ ");"
  String.intercalate "\n" ["", "        #define pycl_offsetof(st, m) \\",
    "                 ((uint) ((__local char *) &(dummy.m) \\",
    "                 - (__local char *)&dummy ))",
    "",
    "        " ++ before,
    "",
    "        " ++ declaration,
    "",
    "        __kernel void get_size_and_offsets(__global uint *result)",
    "        \x7b",
    "            result[0] = sizeof(" ++ name ++ ");",
    "            __local " ++ name ++ " dummy;",
    "            " ++ String.intercalate "\n" reports,
    "        \x7d",
    "    "]

namespace Host

variable (d : DeviceRef)

def reportLayout (context : Option Context) (source : String) (count : Nat) :
    Host (BufferId × List Nat) := do
  let context ← match context with
    | some c => pure c
    | none => newContext (some [d]) false
  let queue ← newQueue context none 0
  let p ← newProgram context source
  build p [] (some [d]) .standard
  let k ← programKernel p "get_size_and_offsets"
  let result ← newRows queue (.number .uint32) [(count : Int)] none
  let _ ← call queue k { globalSize := [1], localSize := some [1] } [.buffer result.buffer] []
  record (.finish queue.id)
  let words ← (← getArray result none).elements
  return (result.buffer, words.map fun e => ofLittleEndian e.bytes)

/-- The offsets to use for a structure: those reported, or its own where the reported ones lie outside of
a structure of the right size. -/
def settleOffsets (t : ElementType) (fields : List Field) (size : Nat) (reported : List Nat) :
    Host (List Nat) := do
  if reported.any (size ≤ ·) then
    if t.size == size then return fields.map (·.offset)
    else refuse .runtime ("OpenCL compiler reported offsetof() past sizeof() for struct layout on '" ++
      (← deviceText d) ++ "'. This makes no sense, and it's usually indicates a compiler bug. " ++
      "Refusing to discover struct layout.")
  else return reported

/-- The declaration of a structure under a name. -/
def declarationText (r : TypeRegistry) (name : String) (t : ElementType) : Result String := do
  let fields ← (t.namedParts?.elim (.error (.bare .attribute)) .ok : Result (List Field))
  return structureText name (← fields.mapM fun f => do return (← r.typeName f.type, f.name))

/-- Brings a structure in line with the layout on a device: the type and its declaration under a name. -/
def matchLayout (r : TypeRegistry) (d : DeviceRef) :
    Nat → String → ElementType → Option Context → Host (ElementType × String)
  | 0, _, _, _ => bare .recursion
  | depth + 1, name, t, context => do
    let declaration ← lift (declarationText r name t)
    let known := (← get).layouts.find? fun e =>
      e.1.1 == d && e.1.2.1 == name && e.1.2.2.1.same t && e.1.2.2.2 == context
    let found ← (known.map (pure ·.2)).getD do
      let fields := t.namedParts?.getD []
      let parts := Declarations.addAll {} (fields.map (·.type))
      let declared ← parts.types.mapM fun part => do
        if part.fields?.isNone then bare .attribute
        return (← matchLayout r d depth (← lift (r.typeName part)) part none).2
      let source := layoutSource name fields (parts.text declared) declaration
      let (buffer, words) ← reportLayout d context source (fields.length + 1)
      let size := words.headD 0
      let offsets ← settleOffsets d t fields size (words.drop 1)
      record (.release buffer)
      let twoNames := match t with
        | .vector _ lanes => (ElementType.laneTitles lanes).any Option.isSome
        | _ => false
      if twoNames then bare .value
      let placed := (fields.zip offsets).map fun (f, o) => ({ f with offset := o } : Field)
      if placed.any fun f => size < f.offset + f.type.size then bare .value
      let result := ElementType.record (.ofList placed) size false
      modify fun w => { w with layouts := w.layouts ++ [((d, name, t, context), result)] }
      return result
    return (found, declaration)

def matchStructure (name : String) (t : ElementType) (context : Option Context) :
    Host (ElementType × String) := do matchLayout (← registry) d (t.depth + 1) name t context

structure DeclaredParts where
  parts : Declarations := {}
  declared : List String := []

def declarePart (r : TypeRegistry) (part : ElementType) : Host String := do
  if part.fields?.isNone then bare .attribute
  return (← matchLayout r d (part.depth + 1) (← lift (r.typeName part)) part none).2

def declareType (r : TypeRegistry) (c : DeclaredParts) (t : ElementType) : Host DeclaredParts := do
  let parts := Declarations.add t c.parts
  let declared ← (parts.types.drop c.parts.types.length).mapM (declarePart d r)
  return ⟨parts, c.declared ++ declared⟩

/-- The declaration of a type that is a structure, and nothing for others. -/
def structureDeclaration (t : ElementType) : Host String := do
  match t with
  | .record fields _ _ =>
    let (found, declaration) ← matchStructure d (← typeName t) t none
    let theirs := (found.fields?).getD []
    require (fields.toList.all fun f => theirs.any fun g =>
      f.name == g.name && f.offset == g.offset && f.type.same g.type)
    return declaration
  | _ => return ""

end Host

/-! ## Filling in templates of kernels -/

namespace Template

inductive Processor where
  | plain | printf | directives
deriving DecidableEq

def Processor.ofName? : String → Option Processor
  | "none" => some .plain
  | "printf" => some .printf
  | "mako" => some .directives
  | _ => none

inductive Mark where
  | absent
  | unnamed (rest : String)
  | named (processor rest : String)
deriving DecidableEq

variable (default : Option String) (b : Bindings) (text : String)

def readMark : Mark :=
  match text.toList with
  | '/' :: '/' :: 'C' :: 'L' :: '/' :: '/' :: rest => .unnamed (String.ofList rest)
  | '/' :: '/' :: 'C' :: 'L' :: ':' :: rest =>
    let isPart (c : Char) : Bool := c.isAlphanum || c == '_'
    match rest.takeWhile isPart, rest.dropWhile isPart with
    | [], _ => .absent
    | name, '/' :: '/' :: rest => .named (String.ofList name) (String.ofList rest)
    | _, _ => .absent
  | _ => .absent

def choose : Result (Processor × String) :=
  let mark := readMark text
  let (name, rest) := match mark with
    | .absent => (default, text)
    | .unnamed rest => (default, rest)
    | .named p rest => (some p, rest)
  match name with
  | none => .ok (.plain, rest)
  | some n =>
    match Processor.ofName? n, mark with
    | some p, _ => .ok (p, rest)
    | none, .absent => .error (.bare .attribute)
    | none, .unnamed _ => .error (.told .runtime "unknown template processor 'None'")
    | none, .named p _ => .error (.told .runtime ("unknown template processor '" ++ p ++ "'"))

def render : Result String := do
  let (p, rest) ← choose default text
  match p with
  | .plain => return rest
  | .printf => renderNamed b rest
  | .directives => renderDirectives b rest

open Host

structure Renderer where
  processor : Option String
  aliases : List (String × ElementType) := []
  bindings : Bindings := []

def macroMark : String := "macro_"

def prepareMacros : Result Bindings :=
  List.mapM (fun (name, d) =>
    if Text.startsWith name macroMark then
      match d with
      | .text s => do return (name, .text (← Source.macroBody s))
      | _ => .error (.bare .attribute)
    else .ok (name, d)) b

def Renderer.make (processor : Option String) (aliases : List (String × ElementType)) (b : Bindings) :
    Result Renderer := do
  return ⟨processor, aliases, ← prepareMacros b⟩

def dropComments : Nat → List Char → List Char
  | 0, cs => cs
  | _, [] => []
  | fuel + 1, '/' :: '*' :: cs =>
    match takeUntil "*/".toList [] cs with
    | some (inside, rest) =>
      if inside.toList.contains '\n' then '/' :: dropComments fuel ('*' :: cs) else dropComments fuel rest
    | none => '/' :: dropComments fuel ('*' :: cs)
  | fuel + 1, c :: cs => c :: dropComments fuel cs

inductive ArgumentEntry where
  | declared (s : String)
  | argument (a : KernelArgument)
  | typed (type : String ⊕ ElementType) (name : String)
  | unknown

inductive ArgumentList where
  | text (s : String)
  | entries (items : List ArgumentEntry)

namespace Renderer

variable (r : Renderer)

def render (text : String) : Result String := Template.render r.processor r.bindings text

def parseType (registry : TypeRegistry) (name : String) : Result ElementType :=
  match r.aliases.find? (fun e => e.1 == name) with
  | some (_, t) => .ok t
  | none => match registry.type? name with
    | some t => .ok t
    | none => .error (.bare .key)

def entries : ArgumentList → Result (List ArgumentEntry)
  | .entries items => .ok items
  | .text s => do
    let filled ← r.render s
    let plain := String.ofList (dropComments filled.length filled.toList)
    return (Text.splitAt ',' (Text.replaceAll plain "\n" " ")).map .declared

def readEntries (r : Renderer) (registry : TypeRegistry) (withOffset : Bool) :
    Option KernelArgument → List ArgumentEntry → Result (List KernelArgument)
  | _, [] => .ok []
  | last, .declared s :: rest => do
    let s := Text.strip s
    if s.isEmpty then readEntries r registry withOffset last rest
    else
      let a ← KernelArgument.readWith (r.parseType registry) withOffset s
      return a :: (← readEntries r registry withOffset (some a) rest)
  | _, .argument a :: rest => do return a :: (← readEntries r registry withOffset (some a) rest)
  | _, .typed type name :: rest => do
    let t ← match type with
      | .inl n => r.parseType registry n
      | .inr t => .ok t
    let a := KernelArgument.scalar t name
    return a :: (← readEntries r registry withOffset (some a) rest)
  | last, .unknown :: rest =>
    match last with
    | some a => do return a :: (← readEntries r registry withOffset last rest)
    | none => .error (.bare .unsetLocal)

def arguments (registry : TypeRegistry) (withOffset : Bool) (lists : List ArgumentList) :
    Result (List KernelArgument) := do
  let all ← lists.mapM r.entries
  r.readEntries registry withOffset none all.flatten

def sortedAliases : List (String × ElementType) := r.aliases.mergeSort fun a b => decide (a.1 ≤ b.1)

def visitArguments (c : DeclaredParts) (args : List KernelArgument) : Host DeclaredParts :=
  args.foldlM (fun c a =>
    match a.type? with
    | some t => pure { c with parts := c.parts.note t }
    | none => bare .attribute) c

def preamble (d : DeviceRef) (types : List (String ⊕ ElementType))
    (args : List KernelArgument) : Host String := do
  let known ← registry
  let c ← types.foldlM (fun (c : DeclaredParts) t => do
    let t ← match t with
      | .inl n => lift (r.parseType known n)
      | .inr t => pure t
    declareType d known c t) {}
  let c ← visitArguments c args
  let c ← r.sortedAliases.foldlM (fun c e => declareType d known c e.2) c
  let aliases ← r.sortedAliases.mapM fun (name, t) => do
    return "typedef " ++ (← typeName t) ++ " " ++ name ++ ";"
  return c.parts.text c.declared ++ "\n" ++ String.intercalate "\n" aliases

end Renderer

end Template

end ClHost

import ConverterAssembly.Yaml.Quoted

/-!
# Flow nodes of YAML documents

Lists between square brackets and maps between braces, written as in JSON.  Plain scalars end at the
signs of the flow; blanks, line breaks and comments may stand between the parts, and a comma may
stand after the last one.

Every step of the readers takes at least one character, so the number of characters bounds their
recursion.
-/

namespace ConverterAssembly.Yaml

/-- The signs that end a plain scalar in a flow node. -/
def isFlowSign (c : Char) : Bool :=
  c = ',' || c = '[' || c = ']' || c = '\x7b' || c = '\x7d'

/-- The size of a plain scalar on its line: it ends before a colon with a gap after it and before a
comment, and in a flow node before the signs of the flow. -/
def plainSize (flow : Bool) : (afterBlank : Bool) → Text → Nat
  | _, [] => 0
  | afterBlank, c :: cs =>
    if c = '\n' then 0
    else if c = '#' && afterBlank then 0
    else if c = ':' && (isGap cs.head? || (flow && cs.head?.any isFlowSign)) then 0
    else if flow && isFlowSign c then 0
    else plainSize flow (isBlank c) cs + 1

/-- Whether a plain scalar can begin with `c` before `next`. -/
def beginsPlain (flow : Bool) (c : Char) (next : Option Char) : Bool :=
  if c = '-' then !isGap next
  else if c = '?' || c = ':' then !flow && !isGap next
  else
    !isBlank c && c ≠ '\n' && !isFlowSign c && !isQuote c && c ≠ '#' && c ≠ '&' && c ≠ '*'
      && c ≠ '!' && c ≠ '|' && c ≠ '>' && c ≠ '%' && c ≠ '@' && c ≠ '\x60'

/-- The text from the next part of a flow node on, past blanks, line breaks and comments. -/
def skipFlowFrom : (inComment afterBlank : Bool) → Text → Text
  | _, _, [] => []
  | inComment, afterBlank, c :: cs =>
    if c = '\n' then skipFlowFrom false true cs
    else if inComment then skipFlowFrom true true cs
    else if isBlank c then skipFlowFrom false true cs
    else if c = '#' && afterBlank then skipFlowFrom true true cs
    else c :: cs

/-- The text from the next part of a flow node on. -/
def skipFlow (text : Text) : Text :=
  skipFlowFrom false false text

/-- Reads the lines of a plain scalar in a flow node, at most `bound` of them. -/
def readPlainLines : (bound : Nat) → Text → List Text × Text
  | 0, text => ([], text)
  | bound + 1, text =>
    let size := plainSize true true text
    let piece := dropEndBlanks (text.take size)
    let rest := text.drop size
    match dropBlanks rest with
    | '\n' :: after =>
      let next := dropBlanks after
      if next.head? = some '\n' || next.head?.any fun c => c ≠ '#' && c ≠ ':' && !isFlowSign c then
        let (pieces, rest) := readPlainLines bound next
        (piece :: pieces, rest)
      else
        ([piece], rest)
    | _ => ([piece], rest)

/-- Reads a scalar of a flow node that begins with `c`. -/
def readFlowScalar (c : Char) (cs : Text) : Option (Node × Text) :=
  if isQuote c then (readQuoted c cs).map fun (text, rest) => (.quoted text, rest)
  else if beginsPlain true c cs.head? then
    let (pieces, rest) := readPlainLines (cs.length + 1) (c :: cs)
    some (.plain (fold pieces), rest)
  else none

/-- The text after the colon of an entry, if there is one: after a quoted name it needs no gap. -/
def afterFlowColon? (key : Node) (text : Text) : Option Text :=
  match skipFlow text with
  | ':' :: rest =>
    match key with
    | .plain _ => if isGap rest.head? then some rest else none
    | _ => some rest
  | _ => none

mutual

/-- Reads a node that begins with `c`. -/
def readFlowNode : (bound : Nat) → (c : Char) → Text → Option (Node × Text)
  | 0, _, _ => none
  | bound + 1, c, cs =>
    if c = '[' then (readFlowItems bound cs).map fun (items, rest) => (.list items, rest)
    else if c = '\x7b' then (readFlowEntries bound cs).map fun (es, rest) => (.map es, rest)
    else readFlowScalar c cs

/-- Reads the items of a list and its closing bracket. -/
def readFlowItems : (bound : Nat) → Text → Option (List Node × Text)
  | 0, _ => none
  | bound + 1, text =>
    match skipFlow text with
    | [] => none
    | c :: cs =>
      if c = ']' then some ([], cs)
      else
        match readFlowItem bound c cs with
        | none => none
        | some (node, rest) =>
          match skipFlow rest with
          | ',' :: rest => (readFlowItems bound rest).map fun (ns, rest) => (node :: ns, rest)
          | ']' :: rest => some ([node], rest)
          | _ => none

/-- Reads one item of a list; an entry with a colon is a map of its own. -/
def readFlowItem : (bound : Nat) → (c : Char) → Text → Option (Node × Text)
  | 0, _, _ => none
  | bound + 1, c, cs =>
    match readFlowNode bound c cs with
    | none => none
    | some (node, rest) =>
      match afterFlowColon? node rest with
      | none => some (node, rest)
      | some rest =>
        (readFlowValue bound rest).map fun (value, rest) => (.map [(node, value)], rest)

/-- Reads the value of an entry; it may be absent. -/
def readFlowValue : (bound : Nat) → Text → Option (Node × Text)
  | 0, _ => none
  | bound + 1, text =>
    match skipFlow text with
    | [] => none
    | c :: cs =>
      if c = ',' || c = ']' || c = '\x7d' then some (.plain [], c :: cs)
      else readFlowNode bound c cs

/-- Reads the entries of a map and its closing brace. -/
def readFlowEntries : (bound : Nat) → Text → Option (List (Node × Node) × Text)
  | 0, _ => none
  | bound + 1, text =>
    match skipFlow text with
    | [] => none
    | c :: cs =>
      if c = '\x7d' then some ([], cs)
      else
        match readFlowEntry bound c cs with
        | none => none
        | some (entry, rest) =>
          match skipFlow rest with
          | ',' :: rest => (readFlowEntries bound rest).map fun (es, rest) => (entry :: es, rest)
          | '\x7d' :: rest => some ([entry], rest)
          | _ => none

/-- Reads one entry of a map; its value may be absent. -/
def readFlowEntry : (bound : Nat) → (c : Char) → Text → Option ((Node × Node) × Text)
  | 0, _, _ => none
  | bound + 1, c, cs =>
    match readFlowNode bound c cs with
    | none => none
    | some (key, rest) =>
      match afterFlowColon? key rest with
      | none => some ((key, .plain []), rest)
      | some rest => (readFlowValue bound rest).map fun (value, rest) => ((key, value), rest)

end

end ConverterAssembly.Yaml

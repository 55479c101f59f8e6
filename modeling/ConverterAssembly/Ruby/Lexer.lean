import ConverterAssembly.Ruby.Lexer.Scan

/-!
# Tokens of a source

`tokenize` cuts a source into tokens that cover it without gap or overlap, whatever the source
holds, and reports the first construct that never ends.
-/

namespace ConverterAssembly.Ruby

/-- The tokens of a source, and the first construct in it that never ends. -/
structure Tokenized where
  tokens : List Token
  error : Option SyntaxError
deriving DecidableEq, Repr

/-- Reads tokens to the end of the text.  The next `skip` characters belong to a token already read;
after them the text is at byte `start` and on the given line. -/
def tokensFrom (ctx : Context) (start line : Nat) : (skip : Nat) → Text → Tokenized
  | _, [] =>
    ⟨[], ctx.heredocs.head?.map fun h => ⟨line, .unterminatedHeredoc h.terminator⟩⟩
  | skip + 1, _ :: cs => tokensFrom ctx start line skip cs
  | 0, c :: cs =>
    let scan := ctx.scan line c cs
    let text := c :: cs.take scan.extent.size
    let rest :=
      tokensFrom (ctx.after scan text) (start + Text.utf8Size text) scan.extent.line
        scan.extent.size cs
    ⟨⟨⟨scan.kind, text⟩, start, line⟩ :: rest.tokens, scan.extent.error.or rest.error⟩

/-- Characters of a token already read are passed over. -/
theorem tokensFrom_drop (ctx : Context) (start line skip : Nat) (text : Text) :
    tokensFrom ctx start line skip text = tokensFrom ctx start line 0 (text.drop skip) := by
  induction text generalizing skip with
  | nil => cases skip <;> simp [tokensFrom]
  | cons c cs ih =>
    cases skip with
    | zero => simp
    | succ skip => simp [tokensFrom, ih skip]

/-- The texts of the tokens are the characters read, in order. -/
theorem sourceOf_tokensFrom (ctx : Context) (start line skip : Nat) (text : Text) :
    sourceOf (tokensFrom ctx start line skip text).tokens = text.drop skip := by
  induction text generalizing ctx start line skip with
  | nil => cases skip <;> simp [tokensFrom, sourceOf]
  | cons c cs ih =>
    cases skip with
    | zero =>
      have rest := ih
        (ctx.after (ctx.scan line c cs) (c :: cs.take (ctx.scan line c cs).extent.size))
        (start + Text.utf8Size (c :: cs.take (ctx.scan line c cs).extent.size))
        (ctx.scan line c cs).extent.line (ctx.scan line c cs).extent.size
      simp only [sourceOf] at rest
      simp only [tokensFrom, sourceOf, List.flatMap_cons, rest, List.drop_zero, List.cons_append,
        List.take_append_drop]
    | succ skip => simpa [tokensFrom] using ih ctx start line skip

/-- The tokens of a source. -/
def tokenize (source : Text) : Tokenized :=
  tokensFrom {} 0 1 0 source

end ConverterAssembly.Ruby

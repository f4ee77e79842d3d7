import ExprLang.Token.Lexer

/-! # Tokens on demand

A source can be asked for one token after the other, so that nothing is read before it is needed. A
stream remembers what is left of the source, where that stands, and whether the closing token was
handed out. After that it has no more answers.
-/

namespace ExprLang

/-- A source that is read on demand. -/
structure TokenStream where
  rest : List Char
  offset : Nat
  ended : Bool

/-- What a stream hands out: a token, and the failure that it reports if it does. -/
abbrev Handed := Token × Option LexError

def Stop.handed (s : Stop) : Handed := (s.token, s.error?)

/-- Everything that a reading hands out, in order. -/
def Scan.handed (s : Scan) : List Handed := s.tokens.map (·, none) ++ [s.stop.handed]

namespace TokenStream

def ofSource (source : String) : TokenStream := ⟨source.toList, 0, false⟩

/-- The next token, if the stream has not ended, and the stream behind it. -/
def next (s : TokenStream) : Option Handed × TokenStream :=
  if s.ended then (none, s)
  else
    match s.rest with
    | [] => (some (Stop.endOfSource s.offset).handed, { s with ended := true })
    | c :: rest =>
      match Lexeme.read s.offset c rest with
      | .error e => (some (Stop.failure s.offset e).handed, { s with ended := true })
      | .ok x =>
        (some (⟨x.kind, s.offset, String.ofList x.text⟩, none),
          ⟨(c :: rest).drop x.length, s.offset + x.length, false⟩)

/-- The answer to the request after `n` others. -/
def answer (s : TokenStream) : Nat → Option Handed
  | 0 => s.next.1
  | n + 1 => s.next.2.answer n

end TokenStream

end ExprLang

import ExprLang.Proofs.BuiltinRegistry
import ExprLang.Proofs.Parse
import ExprLang.Proofs.Writing

/-!
# Sources put together

A source that parses on its own can be put in brackets: no lexeme goes on with a closing bracket or a
comma, so the words of the source are the same inside, and whatever is around it is read as if the source
were a single operand. What is put together of sources is therefore parsed as the tree that is put
together of theirs.

Main statement: `parse_composed`.
-/

namespace ExprLang

open Text Lexeme Grammar

variable {V : Vocabulary} {r : Registry V} {cs cs' : List Char} {e e' : Expr V}

/-! ## A source in brackets -/

/-- What may stand right behind a source in brackets. -/
def IsCloser (d : Char) : Prop := d = ')' ∨ d = ',' ∨ d = ']'

theorem continues_of_isCloser {kind : TokenKind} {raw text : List Char} (h : Forms kind raw text)
    {d : Char} (hd : IsCloser d) : continues kind raw d = false := by
  cases h with
  | whitespace => rcases hd with rfl | rfl | rfl <;> rfl
  | identifier => rcases hd with rfl | rfl | rfl <;> rfl
  | bool => rcases hd with rfl | rfl | rfl <;> rfl
  | integer => rcases hd with rfl | rfl | rfl <;> rfl
  | float => rcases hd with rfl | rfl | rfl <;> rfl
  | string => rfl
  | symbol hmem =>
    rw [continues_symbol hmem, List.any_eq_false]
    -- No symbol of two characters ends with a closing one.
    have hall : ∀ p ∈ symbols, p.1.length = 1 ∨ p.1.getLast? ∉ [some ')', some ',', some ']'] := by
      decide
    intro p hp heq
    obtain ⟨c, more, rfl, -⟩ := exists_cons_of_mem_symbols hmem
    rcases hall p hp with hone | hlast
    · rw [of_decide_eq_true heq] at hone
      simp at hone
    · rw [of_decide_eq_true heq, List.getLast?_concat] at hlast
      rcases hd with rfl | rfl | rfl <;> simp at hlast

theorem Lexeme.Ends.append {kind : TokenKind} {raw text tail more : List Char}
    (hend : Ends kind raw tail) (h : Forms kind raw text) (hmore : ∀ d ∈ more.head?, IsCloser d) :
    Ends kind raw (tail ++ more) := by
  cases tail with
  | nil => exact fun d hd => continues_of_isCloser h (hmore d hd)
  | cons c tail => exact hend

/-- A reading without an error goes on in front of what closes a bracket. -/
theorem writes_of_scans {offset : Nat} {s : Scan} (h : Scans offset cs s)
    (hstop : s.stop.error? = none) : Writes IsCloser cs s.words := by
  induction h with
  | ended => exact fun offset tail _ => ⟨rfl, rfl⟩
  | @token _ kind raw text tail s hforms hend _ ih =>
    intro offset more hmore
    obtain ⟨hwords, herror⟩ := ih hstop (offset + raw.length) more hmore
    rw [List.append_assoc, scanFrom_append offset hforms (hend.append hforms hmore),
      List.length_append, ← Nat.add_assoc]
    refine ⟨?_, herror⟩
    by_cases hkind : kind = .whitespace
    · subst hkind
      rw [Scan.words_whitespace, Scan.words_whitespace]
      exact hwords
    · rw [Scan.words_cons hkind, Scan.words_cons hkind, List.cons_append]
      exact congrArg _ hwords
  | unrecognized => cases hstop
  | unterminated => cases hstop

/-- In front of a character in `p`, the text `cs` is read as words of which `P` holds. -/
def IsText (p : Char → Prop) (cs : List Char) (P : List Word → Prop) : Prop :=
  ∃ ws, Writes p cs ws ∧ P ws

theorem parse_of_isText {p : Char → Prop} {source : String} (hsource : source.toList = cs)
    (h : IsText p cs (IsExpr r · e)) : Expr.parse r source = .ok e := by
  subst hsource
  obtain ⟨ws, hwrites, hexpr⟩ := h
  obtain ⟨hwords, hstop⟩ := scan_of_writes hwrites
  exact parse_of_words hstop hwords hexpr

/-- What parses on its own is what is read in brackets. -/
theorem parse_eq_ok_iff_isText {source : String} :
    Expr.parse r source = .ok e ↔ IsText IsCloser source.toList (IsExpr r · e) := by
  constructor
  · intro h
    obtain ⟨hstop, hexpr⟩ := (parse_eq_ok_iff r source e).mp h
    rw [← error?_scan_eq_none_iff] at hstop
    exact ⟨_, writes_of_scans (scans_scanFrom 0 source.toList) hstop, hexpr⟩
  · exact parse_of_isText rfl

namespace IsText

variable {p q : Char → Prop} {P Q : List Word → Prop}

theorem mono (h : IsText p cs P) (hp : ∀ d, q d → p d) (hP : ∀ ws, P ws → Q ws) :
    IsText q cs Q := by
  obtain ⟨ws, hwrites, hws⟩ := h
  exact ⟨ws, hwrites.mono hp, hP ws hws⟩

theorem operand (h : IsText p cs (IsChain r · e)) : IsText p cs (IsOperand r · e) :=
  h.mono (fun _ => id) fun _ => .chain

theorem expr (h : IsText p cs (IsOperand r · e)) : IsText p cs (IsExpr r · e) :=
  h.mono (fun _ => id) fun _ => .operand

theorem begins (h : IsText p cs (IsExpr r · e)) : Begins (fun _ => True) cs := by
  obtain ⟨ws, hwrites, hexpr⟩ := h
  refine begins_of_ne_nil ?_
  rintro rfl
  have hwords : ([] : List Word) = ws ++ [] := (hwrites 0 [] nofun).1
  rw [List.append_nil] at hwords
  exact hexpr.ne_nil hwords.symm

end IsText

/-! ## Brackets -/

section Brackets

variable {p : Char → Prop}

theorem isText_group {f : Function V} (hf : r.find? Operator.groupFunction = some f)
    (h : IsText p cs (IsExpr r · e)) (hp : p ')') :
    IsText (fun _ => True) ('(' :: (cs ++ [')'])) (IsChain r · (.call f [e] 0)) := by
  have hbegins := h.begins
  obtain ⟨ws, hwrites, hexpr⟩ := h
  exact ⟨_, hwrites.parenthesized hp hbegins, .group hf hexpr⟩

theorem isText_index {f : Function V} (hf : r.find? Operator.indexFunction = some f)
    (h : IsText (fun _ => True) cs (IsChain r · e)) (h' : IsText p cs' (IsExpr r · e'))
    (hp : p ']') :
    IsText (fun _ => True) (cs ++ '[' :: (cs' ++ [']'])) (IsChain r · (.call f [e, e'] 0)) := by
  have hbegins := h'.begins
  obtain ⟨ws, hwrites, hchain⟩ := h
  obtain ⟨ws', hwrites', hexpr⟩ := h'
  have hbrackets : Writes (fun _ => True) ('[' :: (cs' ++ [']']))
      (⟨.leftIndex, "["⟩ :: (ws' ++ [⟨.rightIndex, "]"⟩])) :=
    .enclosed (by decide) (by decide) hwrites' hp hbegins
  exact ⟨_, hwrites.append hbrackets (begins_cons trivial _), .index hchain hf hexpr⟩

end Brackets

/-! ## Calls -/

section Calls

variable {sources : List String} {es : List (Expr V)} {name : String}

theorem isText_sources (hne : es ≠ [])
    (h : List.Forall₂ (fun source e => Expr.parse r source = .ok e) sources es) :
    IsText IsCloser (String.intercalate ", " sources).toList (IsList r · es) ∧
      Begins (fun _ => True) (String.intercalate ", " sources).toList := by
  induction h with
  | nil => exact absurd rfl hne
  | @cons source e sources es hsource hsources ih =>
    have hbegins := (parse_eq_ok_iff_isText.mp hsource).begins
    obtain ⟨ws, hwrites, hexpr⟩ := parse_eq_ok_iff_isText.mp hsource
    cases hsources with
    | nil =>
      rw [String.intercalate_singleton]
      exact ⟨⟨ws, hwrites, .one hexpr⟩, hbegins⟩
    | @cons source' e' sources es _ _ =>
      obtain ⟨⟨ws', hwrites', hlist⟩, hbegins'⟩ := ih (List.cons_ne_nil e' es)
      have hcomma : Writes (fun _ => True) [','] [⟨.delimiter, ","⟩] := writes_mark (by decide)
      have hblank := writes_blank.append hwrites' hbegins'
      have hrest := hcomma.append hblank (begins_cons trivial _)
      have hall := hwrites.append hrest (begins_cons (.inr (.inl rfl)) _)
      have htoList : (String.intercalate ", " (source :: source' :: sources)).toList =
          source.toList ++ ([','] ++ ([' '] ++
            (String.intercalate ", " (source' :: sources)).toList)) := by
        simp [String.intercalate_cons_cons, String.toList_append]
      rw [htoList]
      exact ⟨⟨_, hall, .cons hexpr hlist⟩, hbegins.append _⟩

theorem isText_arguments
    (h : List.Forall₂ (fun source e => Expr.parse r source = .ok e) sources es) :
    IsText (fun _ => True) ('(' :: ((String.intercalate ", " sources).toList ++ [')']))
      (IsArguments r · es) := by
  by_cases hne : es = []
  · subst hne
    cases h
    have hleft : Writes (fun _ => True) ['('] [⟨.leftParenthesis, "("⟩] := writes_mark (by decide)
    have hright : Writes (fun _ => True) [')'] [⟨.rightParenthesis, ")"⟩] :=
      writes_mark (by decide)
    exact ⟨_, hleft.append hright (begins_cons trivial []), .none⟩
  · obtain ⟨⟨ws, hwrites, hlist⟩, hbegins⟩ := isText_sources hne h
    exact ⟨_, hwrites.parenthesized (.inl rfl) hbegins, .some hlist⟩

theorem isText_call {f : Function V} (hf : r.find? name = some f) (hname : ¬ IsKeyword name.toList)
    (h : IsText (fun _ => True) ('(' :: cs) (IsArguments r · es)) :
    IsText (fun _ => True) (name.toList ++ '(' :: cs) (IsChain r · (.call f es 0)) := by
  obtain ⟨ws, hwrites, harguments⟩ := h
  have hword := isWord_of_isFunctionName (r.named name f hf).2
  have hbegins : Begins (isWordPart · = false) ('(' :: cs) := begins_cons (by rfl) cs
  have hcall : IsChain r (⟨.identifier, name⟩ :: (ws ++ [])) (.call f es 0) :=
    .call hf harguments .absent
  rw [List.append_nil] at hcall
  exact ⟨_, (writes_identifier ⟨hword, hname⟩).append hwrites hbegins, hcall⟩

theorem parse_call {f : Function V} (hf : r.find? name = some f) (hname : ¬ IsKeyword name.toList)
    (h : List.Forall₂ (fun source e => Expr.parse r source = .ok e) sources es) :
    Expr.parse r (name ++ "(" ++ String.intercalate ", " sources ++ ")") = .ok (.call f es 0) :=
  parse_of_isText (by simp [String.toList_append])
    (isText_call hf hname (isText_arguments h)).operand.expr

theorem isText_method {index : Nat} (h : IsText (fun _ => True) cs (IsChain r · e))
    (hname : IsIdentifier name) (h' : IsText (fun _ => True) ('(' :: cs') (IsArguments r · es))
    (hindex : index < 2 ^ 64) :
    IsText (fun _ => True)
      (cs ++ ('.' :: (name.toList ++
        ('(' :: cs' ++ '\x7b' :: ((toString index).toList ++ ['\x7d'])))))
      (IsChain r · (.method e name es index)) := by
  obtain ⟨ws, hwrites, hchain⟩ := h
  obtain ⟨ws', hwrites', harguments⟩ := h'
  have hpoint : Writes (fun _ => True) ['.'] [⟨.separator, "."⟩] := writes_mark (by decide)
  have hsuffix := hwrites'.append (writes_resultIndex index) (begins_cons trivial _)
  have hbegins : Begins (isWordPart · = false) ('(' :: cs') := begins_cons (by rfl) cs'
  have hmember := (writes_identifier hname).append hsuffix (hbegins.append _)
  have hbegins' := (begins_identifier hname).mono fun _ _ => trivial
  have hrest := hpoint.append hmember (hbegins'.append _)
  have hmethod : IsChain r (ws ++ ⟨.separator, "."⟩ :: ⟨.identifier, name⟩ :: (ws' ++ _))
      (.method e name es index) :=
    .method hchain harguments (isIndex_resultIndex hindex)
  exact ⟨_, hwrites.append hrest (begins_cons trivial _), hmethod⟩

end Calls

/-! ## Operators -/

section Operators

variable {p q : Char → Prop} {name : String} {f : Function V}

theorem isText_unary {kind : TokenKind} {c : Char} (hc : ([c], kind) ∈ symbols)
    (hkind : kind = .unaryOperator ∨ kind = .binaryOperator)
    (hname : Operator.unaryFunction? (String.ofList [c]) = some name) (hf : r.find? name = some f)
    (h : IsText p cs (IsOperand r · e))
    (hbegins : Begins (fun d => symbols.any (·.1 = [c] ++ [d]) = false) cs) :
    IsText p (c :: cs) (IsOperand r · (.call f [e] 0)) := by
  obtain ⟨ws, hwrites, hoperand⟩ := h
  exact ⟨_, (writes_symbol hc).append hwrites hbegins, .unary hkind hname hf hoperand⟩

/-- A binary operator is a symbol, no blank makes a longer one of it, and it stands for a function that
is built in. -/
theorem of_binaryFunction? {operator : String}
    (h : Operator.binaryFunction? operator = some name) :
    (operator.toList, .binaryOperator) ∈ symbols ∧
      symbols.any (·.1 = operator.toList ++ [' ']) = false ∧ ∃ b : Builtin, b.name = name := by
  have hsymbol : ∀ p ∈ Operator.binaries, (p.1.toList, .binaryOperator) ∈ symbols ∧
      symbols.any (·.1 = p.1.toList ++ [' ']) = false := by
    decide
  have hbuiltin : ∀ p ∈ Operator.binaries, ∃ b ∈ Builtin.all, b.name = p.2 := by decide
  have hmem := Operator.binaryFunction?_eq_some_iff.mp h
  obtain ⟨hsymbols, hapart⟩ := hsymbol _ hmem
  obtain ⟨b, -, hb⟩ := hbuiltin _ hmem
  exact ⟨hsymbols, hapart, b, hb⟩

theorem isText_binary {operator : String} (hname : Operator.binaryFunction? operator = some name)
    (hf : r.find? name = some f) (h : IsText p cs (IsExpr r · e)) (hp : p ' ')
    (h' : IsText q cs' (IsOperand r · e')) :
    IsText q (cs ++ ' ' :: (operator.toList ++ ' ' :: cs')) (IsExpr r · (.call f [e, e'] 0)) := by
  have hbegins := h'.expr.begins
  obtain ⟨ws, hwrites, hexpr⟩ := h
  obtain ⟨ws', hwrites', hoperand⟩ := h'
  obtain ⟨hmem, hapart, -⟩ := of_binaryFunction? hname
  have hoperator := writes_symbol hmem
  rw [String.ofList_toList] at hoperator
  have hright := writes_blank.append hwrites' hbegins
  have hboth := hoperator.append hright (begins_cons hapart _)
  have hall := hwrites.append (writes_blank.append hboth ?_) (begins_cons hp _)
  · exact ⟨_, hall, .binary hexpr hname hf hoperand⟩
  · obtain ⟨c, rest, hcons, -⟩ := exists_cons_of_mem_symbols hmem
    rw [hcons]
    exact begins_cons trivial _

end Operators

/-! ## Composition -/

/-- Sources that parse are put together as text, and the text parses as the tree put together of theirs:
in parentheses, behind a prefix operator, on both sides of a binary operator (one of `Operator.binaries`),
as an index, as receiver and arguments of a method, and as arguments of a function. -/
theorem parse_composed {builtin : Builtin → Function V}
    (hbuiltin : ∀ b : Builtin, r.find? b.name = some (builtin b)) {S T : String} {s t : Expr V}
    (hS : Expr.parse r S = .ok s) (hT : Expr.parse r T = .ok t) {sources : List String}
    {arguments : List (Expr V)}
    (harguments : List.Forall₂ (fun source e => Expr.parse r source = .ok e) sources arguments) :
    let group (e : Expr V) : Expr V := .call (builtin .nil) [e] 0
    Expr.parse r ("(" ++ S ++ ")") = .ok (group s) ∧
    Expr.parse r ("!(" ++ S ++ ")") = .ok (.call (builtin .not) [group s] 0) ∧
    Expr.parse r ("-(" ++ S ++ ")") = .ok (.call (builtin .negate) [group s] 0) ∧
    (∀ operator name, Operator.binaryFunction? operator = some name →
      ∃ b : Builtin, b.name = name ∧
        Expr.parse r ("(" ++ S ++ ") " ++ operator ++ " (" ++ T ++ ")") =
          .ok (.call (builtin b) [group s, group t] 0)) ∧
    Expr.parse r ("(" ++ S ++ ")[" ++ T ++ "]") = .ok (.call (builtin .indexOf) [group s, t] 0) ∧
    Expr.parse r ("indexOf((" ++ S ++ "), " ++ T ++ ")") =
      .ok (.call (builtin .indexOf) [group s, t] 0) ∧
    (∀ name index, IsIdentifier name → index < 2 ^ 64 →
      Expr.parse r ("(" ++ S ++ ")." ++ name ++ "(" ++ String.intercalate ", " sources ++ ")\x7b" ++
        toString index ++ "\x7d") = .ok (.method (group s) name arguments index)) ∧
    (∀ name f, r.find? name = some f → ¬ IsKeyword name.toList →
      Expr.parse r (name ++ "(" ++ String.intercalate ", " sources ++ ")") =
        .ok (.call f arguments 0)) := by
  intro group
  have hgroup {source : String} {e : Expr V} (h : Expr.parse r source = .ok e) :
      IsText (fun _ => True) ('(' :: (source.toList ++ [')'])) (IsChain r · (group e)) :=
    isText_group (hbuiltin .nil) (parse_eq_ok_iff_isText.mp h) (.inl rfl)
  have hparens : Expr.parse r ("(" ++ S ++ ")") = .ok (group s) :=
    parse_of_isText (by simp [String.toList_append]) (hgroup hS).operand.expr
  refine ⟨hparens, ?_, ?_, ?_, ?_, ?_, ?_, fun name f hf hname => parse_call hf hname harguments⟩
  · have hnot := isText_unary (c := '!') (by decide) (.inl rfl) rfl (hbuiltin .not)
      (hgroup hS).operand (begins_cons (by decide) _)
    exact parse_of_isText (by simp [String.toList_append]) hnot.expr
  · have hnegate := isText_unary (c := '-') (by decide) (.inr rfl) rfl (hbuiltin .negate)
      (hgroup hS).operand (begins_cons (by decide) _)
    exact parse_of_isText (by simp [String.toList_append]) hnegate.expr
  · intro operator name hname
    obtain ⟨b, rfl⟩ := (of_binaryFunction? hname).2.2
    have hbinary := isText_binary hname (hbuiltin b) (hgroup hS).operand.expr trivial
      (hgroup hT).operand
    exact ⟨b, rfl, parse_of_isText (by simp [String.toList_append]) hbinary⟩
  · have hindex := isText_index (hbuiltin .indexOf) (hgroup hS) (parse_eq_ok_iff_isText.mp hT)
      (.inr (.inr rfl))
    exact parse_of_isText (by simp [String.toList_append]) hindex.operand.expr
  · have hindexOf : Expr.parse r
        ("indexOf" ++ "(" ++ String.intercalate ", " ["(" ++ S ++ ")", T] ++ ")") =
          .ok (.call (builtin .indexOf) [group s, t] 0) :=
      parse_call (hbuiltin .indexOf) (by decide) (.cons hparens (.cons hT .nil))
    have htext : "indexOf((" ++ S ++ "), " ++ T ++ ")" =
        "indexOf" ++ "(" ++ String.intercalate ", " ["(" ++ S ++ ")", T] ++ ")" := by
      rw [← String.toList_inj]
      simp [String.intercalate_cons_cons, String.toList_append]
    rw [htext]
    exact hindexOf
  · intro name index hname hindex
    have hmethod := isText_method (hgroup hS) hname (isText_arguments harguments) hindex
    exact parse_of_isText (by simp [String.toList_append]) hmethod.operand.expr

/-- Blanks at the ends of a source, brackets and commas in a string and a number in front of a bracket do
no harm. -/
theorem parse_composed_strings :
    let r : Registry Vocabulary.empty := .withBuiltins 0
    let group (e : Expr Vocabulary.empty) : Expr Vocabulary.empty :=
      .call (Builtin.nil.toFunction 0) [e] 0
    Expr.parse r " x " = .ok (.lookup "x") ∧
    Expr.parse r "'),]('" = .ok (.literal (.string "),](")) ∧
    (∃ b : Builtin, b.name = "lessThanEqual" ∧
      Expr.parse r "( x ) <= ('),](')" =
        .ok (.call (b.toFunction 0) [group (.lookup "x"), group (.literal (.string "),]("))] 0)) ∧
    Expr.parse r "( x )['),](']" =
      .ok (.call (Builtin.indexOf.toFunction 0) [group (.lookup "x"), .literal (.string "),](")] 0) ∧
    Expr.parse r "( x ).m('),](',  x ){2}" =
      .ok (.method (group (.lookup "x")) "m" [.literal (.string "),]("), .lookup "x"] 2) := by
  intro r group
  have hx : Expr.parse r " x " = .ok (.lookup "x") :=
    parse_of_words (by decide +kernel) (by decide +kernel) (.operand (.chain .lookup))
  have hstring : Expr.parse r "'),]('" = .ok (.literal (.string "),](")) :=
    parse_of_words (by decide +kernel) (by decide +kernel)
      (.operand (.chain (.literal .string)))
  have hcomposed := parse_composed (Registry.find?_withBuiltins 0) hx hstring
    (.cons hstring (.cons hx .nil))
  have hm : IsIdentifier "m" := ⟨⟨'m', [], rfl, rfl, nofun⟩, by decide⟩
  obtain ⟨-, -, -, hbinary, hindex, -, hmethod, -⟩ := hcomposed
  exact ⟨hx, hstring, hbinary "<=" "lessThanEqual" rfl, hindex, hmethod "m" 2 hm (by decide)⟩

end ExprLang

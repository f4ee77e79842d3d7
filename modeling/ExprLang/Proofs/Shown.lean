import ExprLang.Proofs.Reread
import ExprLang.Proofs.Writing

/-!
# The words of a rendering

What a source can hold is rendered as text whose words are known: `Shown` relates an expression to the
words of its rendering. There is one such fact for each kind of expression, and the texts between them
are put together so that no lexeme takes a character of the next one, the point behind an integer
apart.

Main statement: `Readable.shown`.
-/

namespace ExprLang

open Text Lexeme Grammar

variable {V : Vocabulary} {r : Registry V}

/-! ## Expressions and their words -/

namespace Expr

/-- What may stand right behind an expression in a rendering. -/
def Follows (e : Expr V) (d : Char) : Prop := d = ',' ∨ d = ')' ∨ (d = '.' ∧ e.isInteger = false)

/-- A rendering is read as the words `ws`. They cannot be read if an integer literal stands in front
of a point, and else they are what is read back. -/
structure Shown (r : Registry V) (e : Expr V) (ws : List Word) : Prop where
  begins : Begins (isBlank · = false) e.render.toList
  writes : Writes e.Follows e.render.toList ws
  isChain : e.all isApart = true → IsChain r ws e.reread
  broken : e.all isApart = false → Broken ws

/-- What is written behind the name in a call. -/
def suffix (arguments : List (Expr V)) (index : Nat) : List Char :=
  '(' :: ((String.intercalate ", " (renderEach arguments)).toList ++
    ')' :: if index = 0 then [] else '\x7b' :: ((toString index).toList ++ ['\x7d']))

theorem begins_suffix {arguments : List (Expr V)} {index : Nat} :
    Begins (isWordPart · = false) (suffix arguments index) := begins_cons (by rfl) _

theorem toList_suffix (arguments : List (Expr V)) (index : Nat) :
    ("(" ++ String.intercalate ", " (renderEach arguments) ++ ")" ++
      if index = 0 then "" else "\x7b" ++ toString index ++ "\x7d").toList =
        suffix arguments index := by
  unfold suffix
  split <;> simp [String.toList_append]

theorem toList_render_call (f : Function V) (arguments : List (Expr V)) (index : Nat) :
    (render (.call f arguments index)).toList = f.name.toList ++ suffix arguments index := by
  rw [← toList_suffix, render]
  simp only [String.toList_append, List.append_assoc]

theorem toList_render_method (parent : Expr V) (name : String) (arguments : List (Expr V))
    (index : Nat) : (render (.method parent name arguments index)).toList =
      parent.render.toList ++ '.' :: (name.toList ++ suffix arguments index) := by
  rw [← toList_suffix, render]
  simp only [String.toList_append, List.append_assoc]
  rfl

theorem toList_render_field (parent : Expr V) {name : String} (hname : name ≠ "") :
    (render (.field parent name)).toList = parent.render.toList ++ '.' :: name.toList := by
  rw [render, if_neg hname]
  simp only [String.toList_append, List.append_assoc]
  rfl

/-- The arguments of a call, with commas between them, are read as the words `ws`. -/
structure ShownEach (r : Registry V) (es : List (Expr V)) (ws : List Word) : Prop where
  begins : Begins (isBlank · = false) (String.intercalate ", " (renderEach es)).toList
  writes : Writes (fun d => d = ',' ∨ d = ')')
    (String.intercalate ", " (renderEach es)).toList ws
  isList : allEach isApart es = true → IsList r ws (rereadEach es)
  broken : allEach isApart es = false → Broken ws

theorem Shown.single {e : Expr V} {ws : List Word} (h : Shown r e ws) : ShownEach r [e] ws where
  begins := by simpa [renderEach] using h.begins
  writes := by
    have hwrites := h.writes.mono (q := fun d => d = ',' ∨ d = ')') <| by
      rintro d (rfl | rfl)
      · exact .inl rfl
      · exact .inr (.inl rfl)
    simpa [renderEach] using hwrites
  isList hapart := by
    rw [allEach, allEach, Bool.and_true] at hapart
    exact .one (.operand (.chain (h.isChain hapart)))
  broken hapart := by
    rw [allEach, allEach, Bool.and_true] at hapart
    exact h.broken hapart

theorem Shown.cons {e e' : Expr V} {es : List (Expr V)} {ws ws' : List Word} (h : Shown r e ws)
    (h' : ShownEach r (e' :: es) ws') :
    ShownEach r (e :: e' :: es) (ws ++ ⟨.delimiter, ","⟩ :: ws') where
  begins := by
    simp only [renderEach, String.intercalate_cons_cons, String.toList_append]
    exact (h.begins.append _).append _
  writes := by
    have hcomma : Writes (fun _ => True) [','] [⟨.delimiter, ","⟩] := writes_mark (by decide)
    have hblank := writes_blank.append h'.writes (h'.begins.mono fun _ _ => trivial)
    have hrest := hcomma.append hblank (begins_cons trivial _)
    have hall := h.writes.append hrest (begins_cons (.inl rfl) _)
    simpa [renderEach, String.toList_append] using hall
  isList hapart := by
    rw [allEach, Bool.and_eq_true] at hapart
    exact .cons (.operand (.chain (h.isChain hapart.1))) (h'.isList hapart.2)
  broken hapart := by
    rw [allEach, Bool.and_eq_false_iff] at hapart
    rcases hapart with hapart | hapart
    · exact (h.broken hapart).append_right _
    · exact ((h'.broken hapart).append_left [_]).append_left ws

theorem exists_shownEach {es : List (Expr V)} (hne : es ≠ [])
    (h : ∀ e ∈ es, ∃ ws, Shown r e ws) : ∃ ws, ShownEach r es ws := by
  induction es with
  | nil => exact absurd rfl hne
  | cons e es ih =>
    obtain ⟨ws, hws⟩ := h e List.mem_cons_self
    cases es with
    | nil => exact ⟨ws, hws.single⟩
    | cons e' es =>
      obtain ⟨ws', hws'⟩ := ih (List.cons_ne_nil e' es) fun a ha => h a (List.mem_cons_of_mem e ha)
      exact ⟨_, hws.cons hws'⟩

theorem exists_writes_index {index : Nat} (hindex : index < 2 ^ 64) :
    ∃ ws, Writes (fun _ => True)
        (')' :: if index = 0 then [] else '\x7b' :: ((toString index).toList ++ ['\x7d']))
        (⟨.rightParenthesis, ")"⟩ :: ws) ∧ IsIndex ws index := by
  have hclose : Writes (fun _ => True) [')'] [⟨.rightParenthesis, ")"⟩] := writes_mark (by decide)
  by_cases hzero : index = 0
  · subst hzero
    exact ⟨[], hclose, .absent⟩
  · rw [if_neg hzero]
    exact ⟨_, hclose.append (writes_resultIndex index) (begins_cons trivial _),
      isIndex_resultIndex hindex⟩

theorem exists_writes_suffix {arguments : List (Expr V)} {index : Nat}
    (h : ∀ a ∈ arguments, ∃ ws, Shown r a ws) (hindex : index < 2 ^ 64) :
    ∃ ws, Writes (fun _ => True) (suffix arguments index) ws ∧
      (allEach isApart arguments = true → ∃ ws₁ ws₂, ws = ws₁ ++ ws₂ ∧
        IsArguments r ws₁ (rereadEach arguments) ∧ IsIndex ws₂ index) ∧
      (allEach isApart arguments = false → Broken ws) := by
  have hopen : Writes (fun _ => True) ['('] [⟨.leftParenthesis, "("⟩] := writes_mark (by decide)
  obtain ⟨ws', hwrites, hindex⟩ := exists_writes_index hindex
  by_cases hne : arguments = []
  · subst hne
    -- The parenthesis closes at once, and nothing stands in it that could clash.
    refine ⟨_, hopen.append hwrites (begins_cons trivial _), fun _ => ?_, fun hapart => ?_⟩
    · exact ⟨[_, _], ws', rfl, .none, hindex⟩
    · cases hapart
  · obtain ⟨ws, hws⟩ := exists_shownEach hne h
    have hrest := hws.writes.append hwrites (begins_cons (.inr rfl) _)
    have hall := hopen.append hrest ((hws.begins.append _).mono fun _ _ => trivial)
    refine ⟨_, hall, fun hapart => ?_, fun hapart => ?_⟩
    · refine ⟨⟨.leftParenthesis, "("⟩ :: (ws ++ [⟨.rightParenthesis, ")"⟩]), ws', ?_,
        .some (hws.isList hapart), hindex⟩
      simp
    · exact ((hws.broken hapart).append_right _).append_left [_]

/-! ## Each kind of expression -/

theorem isWordPart_of_follows {e : Expr V} {d : Char} (h : Follows e d) : isWordPart d = false := by
  rcases h with rfl | rfl | ⟨rfl, -⟩
  all_goals rfl

theorem shown_word {e : Expr V} {w : Word} (hbegins : Begins (isBlank · = false) e.render.toList)
    (hwrites : Writes e.Follows e.render.toList [w]) (hchain : IsChain r [w] e.reread)
    (hapart : e.all isApart = true) : Shown r e [w] where
  begins := hbegins
  writes := hwrites
  isChain := fun _ => hchain
  broken := fun hbroken => by
    rw [hapart] at hbroken
    cases hbroken

theorem shown_lookup {e : Expr V} {name : String} (hname : IsIdentifier name)
    (hrender : e.render = name) (hreread : e.reread = .lookup name)
    (hapart : e.all isApart = true) : Shown r e [⟨.identifier, name⟩] := by
  refine shown_word ?_ ?_ (hreread ▸ .lookup) hapart
  · rw [hrender]
    exact (begins_identifier hname).mono fun _ => isBlank_of_isAlphabetic
  · rw [hrender]
    exact (writes_identifier hname).mono fun _ => isWordPart_of_follows

theorem shown_allValues : Shown r (.lookup "" : Expr V) [⟨.allValues, "#"⟩] := by
  have hrender : render (.lookup "" : Expr V) = "#" := if_pos rfl
  have hash : Writes (fun _ => True) ['#'] [⟨.allValues, "#"⟩] := writes_mark (by decide)
  refine shown_word ?_ ?_ (.literal .allValues) rfl
  · rw [hrender]
    exact begins_cons (show isBlank '#' = false from rfl) []
  · rw [hrender]
    exact hash.mono fun _ _ => trivial

theorem shown_bool (b : Bool) :
    Shown r (.literal (.bool b) : Expr V) [⟨.bool, if b then "true" else "false"⟩] := by
  have hrender : render (.literal (.bool b) : Expr V) = if b then "true" else "false" := rfl
  have hliteral :
      IsLiteral (V := V) ⟨.bool, if b then "true" else "false"⟩ (.literal (.bool b)) := by
    cases b
    all_goals exact .bool
  refine shown_word ?_ ((writes_bool b).mono fun _ => isWordPart_of_follows) (.literal hliteral) rfl
  rw [hrender]
  cases b
  · exact begins_cons (show isBlank 'f' = false from rfl) _
  · exact begins_cons (show isBlank 't' = false from rfl) _

theorem shown_string (s : String) : Shown r (.literal (.string s) : Expr V) [⟨.string, s⟩] := by
  refine shown_word ?_ ((writes_string s).mono fun _ _ => trivial) (.literal .string) rfl
  have hrender : (render (.literal (.string s) : Expr V)).toList =
      '\x22' :: (s.toList.flatMap escape ++ ['\x22']) := String.toList_ofList
  rw [hrender]
  exact begins_cons (show isBlank '\x22' = false from rfl) _

theorem render_integer {n : Integer .int64} (hn : 0 ≤ n.val) :
    render (.literal (.int64 n) : Expr V) = toString n.val.toNat := by
  show toString n.val = toString n.val.toNat
  rw [Int.toString_eq_repr, Int.repr_eq_if, if_pos hn]
  rfl

theorem begins_digits {cs : List Char} (hne : cs ≠ []) (hcs : ∀ c ∈ cs, c.isDigit = true) :
    Begins (isBlank · = false) cs := by
  obtain ⟨c, rest, rfl⟩ := List.exists_cons_of_ne_nil hne
  exact begins_cons (isBlank_of_isDigit (hcs c List.mem_cons_self)) rest

theorem shown_integer {n : Integer .int64} (hn : 0 ≤ n.val) :
    Shown r (.literal (.int64 n) : Expr V) [⟨.integer, toString n.val.toNat⟩] := by
  have hliteral : IsLiteral (V := V) ⟨.integer, toString n.val.toNat⟩ (.literal (.int64 n)) := by
    refine .integer ?_
    rw [numeral_toString, Int.toNat_of_nonneg hn]
  refine shown_word ?_ ?_ (.literal hliteral) rfl
  · rw [render_integer hn]
    exact begins_digits (toString_ne_nil _) (isDigit_toString _)
  · rw [render_integer hn]
    refine (writes_integer _).mono ?_
    rintro d (rfl | rfl | ⟨-, hinteger⟩)
    · decide
    · decide
    · cases hinteger

theorem render_float (x : Binary .double) :
    render (.literal (.float64 x) : Expr V) = x.literal := rfl

theorem shown_finite {units : Nat} (h : Format.double.Represents units) : ∃ ws,
    Shown r (.literal (.float64 (.finite false units h)) : Expr V) ws := by
  obtain ⟨whole, fraction, hshows, hvalue⟩ := Binary.literal_finite h
  obtain ⟨cs, hcs⟩ : ∃ cs, cs = whole ++ '.' :: fraction := ⟨_, rfl⟩
  have hliteral : IsLiteral (V := V) ⟨.float, String.ofList cs⟩
      (.literal (.float64 (.ofDecimal (.ofText (String.ofList cs).toList)))) := .float
  rw [String.toList_ofList, hcs, hvalue] at hliteral
  refine ⟨_, shown_word ?_ ?_ (.literal hliteral) rfl⟩
  · rw [render_float, hshows.text]
    exact (begins_digits hshows.ne_nil hshows.whole).append _
  · rw [render_float, hshows.text]
    refine (writes_float ⟨rfl, hshows.ne_nil, hshows.whole, hshows.fraction⟩).mono ?_
    rintro d (rfl | rfl | ⟨rfl, -⟩)
    all_goals decide

theorem exists_writes_point {parent : Expr V} {ws : List Word} (hparent : parent.Readable r)
    (h : Shown r parent ws) {name : String} (hname : IsIdentifier name) :
    ∃ ws', Writes (isWordPart · = false) (parent.render.toList ++ '.' :: name.toList) ws' ∧
      (parent.isInteger = false → ws' = ws ++ [⟨.separator, "."⟩, ⟨.identifier, name⟩]) ∧
      (parent.isInteger = true → Broken ws') := by
  cases hinteger : parent.isInteger with
  | false =>
    have hpoint : Writes (fun _ => True) ['.'] [⟨.separator, "."⟩] := writes_mark (by decide)
    have hmember := hpoint.append (writes_identifier hname)
      ((begins_identifier hname).mono fun _ _ => trivial)
    have hall := h.writes.append hmember (begins_cons (.inr (.inr ⟨rfl, hinteger⟩)) _)
    exact ⟨_, hall, fun _ => rfl, Bool.noConfusion⟩
  | true =>
    -- The point goes to the number, which is a float then, and the name stands right behind it.
    cases hparent with
    | @integer n hn =>
      have hnumber : Decimal.Shows ((toString n.val.toNat).toList ++ ['.'])
          (toString n.val.toNat).toList [] :=
        ⟨rfl, toString_ne_nil _, isDigit_toString _, by simp⟩
      have hall := (writes_float hnumber).append (writes_identifier hname)
        ((begins_identifier hname).mono fun _ => isDigit_of_isAlphabetic)
      rw [List.append_assoc, ← render_integer hn] at hall
      exact ⟨_, hall, Bool.noConfusion, fun _ => ⟨[], _, _, [], rfl⟩⟩
    | _ => cases hinteger

theorem shown_field {parent : Expr V} {ws : List Word} (hparent : parent.Readable r)
    (h : Shown r parent ws) {name : String} (hname : IsIdentifier name) :
    ∃ ws', Shown r (.field parent name) ws' := by
  obtain ⟨ws', hwrites, happart, hbroken⟩ := exists_writes_point hparent h hname
  have hrender :
      (render (.field parent name)).toList = parent.render.toList ++ '.' :: name.toList := by
    refine toList_render_field parent ?_
    rintro rfl
    exact hname.1.ne_nil rfl
  refine ⟨ws', ⟨?_, ?_, ?_, ?_⟩⟩
  · rw [hrender]
    exact h.begins.append _
  · rw [hrender]
    exact hwrites.mono fun _ => isWordPart_of_follows
  · intro hall
    rw [all, Bool.and_eq_true, isApart, Bool.not_eq_true'] at hall
    rw [happart hall.1, reread]
    exact .field (h.isChain hall.2)
  · intro hall
    rw [all, Bool.and_eq_false_iff, isApart, Bool.not_eq_false'] at hall
    cases hinteger : parent.isInteger with
    | true => exact hbroken hinteger
    | false =>
      rw [happart hinteger]
      rcases hall with hself | hall
      · rw [hinteger] at hself
        cases hself
      · exact (h.broken hall).append_right _

theorem shown_method {parent : Expr V} {ws : List Word} (hparent : parent.Readable r)
    (h : Shown r parent ws) {name : String} (hname : IsIdentifier name)
    {arguments : List (Expr V)} (harguments : ∀ a ∈ arguments, ∃ ws, Shown r a ws) {index : Nat}
    (hindex : index < 2 ^ 64) : ∃ ws', Shown r (.method parent name arguments index) ws' := by
  obtain ⟨ws₁, hwrites₁, happart₁, hbroken₁⟩ := exists_writes_point hparent h hname
  obtain ⟨ws₂, hwrites₂, happart₂, hbroken₂⟩ := exists_writes_suffix harguments hindex
  have hrender : (render (.method parent name arguments index)).toList =
      (parent.render.toList ++ '.' :: name.toList) ++ suffix arguments index := by
    rw [toList_render_method, List.append_assoc]
    rfl
  have hall := hwrites₁.append hwrites₂ begins_suffix
  refine ⟨ws₁ ++ ws₂, ⟨?_, ?_, ?_, ?_⟩⟩
  · rw [hrender]
    exact (h.begins.append _).append _
  · rw [hrender]
    exact hall.mono fun _ _ => trivial
  · intro hapart
    rw [all, Bool.and_eq_true, Bool.and_eq_true, isApart, Bool.not_eq_true'] at hapart
    obtain ⟨⟨hinteger, hapart⟩, heach⟩ := hapart
    obtain ⟨ws₃, ws₄, rfl, hlist, hindex⟩ := happart₂ heach
    rw [happart₁ hinteger, reread, List.append_assoc]
    show IsChain r (ws ++ ⟨.separator, "."⟩ :: ⟨.identifier, name⟩ :: (ws₃ ++ ws₄)) _
    exact .method (h.isChain hapart) hlist hindex
  · intro hapart
    rw [all, Bool.and_eq_false_iff, Bool.and_eq_false_iff, isApart, Bool.not_eq_false'] at hapart
    rcases hapart with (hinteger | hapart) | heach
    · exact (hbroken₁ hinteger).append_right ws₂
    · cases hinteger : parent.isInteger with
      | true => exact (hbroken₁ hinteger).append_right ws₂
      | false =>
        rw [happart₁ hinteger]
        exact ((h.broken hapart).append_right _).append_right ws₂
    · exact (hbroken₂ heach).append_left ws₁

theorem shown_call {f : Function V} {arguments : List (Expr V)} {index : Nat}
    (hf : r.find? f.name = some f) (hname : IsIdentifier f.name)
    (harguments : ∀ a ∈ arguments, ∃ ws, Shown r a ws) (hindex : index < 2 ^ 64) :
    ∃ ws, Shown r (.call f arguments index) ws := by
  obtain ⟨ws, hwrites, hapart, hbroken⟩ := exists_writes_suffix harguments hindex
  have hall := (writes_identifier hname).append hwrites begins_suffix
  refine ⟨⟨.identifier, f.name⟩ :: ws, ⟨?_, ?_, ?_, ?_⟩⟩
  · rw [toList_render_call]
    exact ((begins_identifier hname).mono fun _ => isBlank_of_isAlphabetic).append _
  · rw [toList_render_call]
    exact hall.mono fun _ _ => trivial
  · intro heach
    rw [all, Bool.and_eq_true] at heach
    obtain ⟨ws₁, ws₂, rfl, hlist, hindex⟩ := hapart heach.2
    exact .call hf hlist hindex
  · intro heach
    rw [all, Bool.and_eq_false_iff] at heach
    rcases heach with hself | heach
    · cases hself
    · exact (hbroken heach).append_left [_]

/-- The rendering of what a source can hold is read as known words. -/
theorem Readable.shown {e : Expr V} (h : e.Readable r) : ∃ ws, Shown r e ws := by
  induction h with
  | bool => exact ⟨_, shown_bool _⟩
  | string => exact ⟨_, shown_string _⟩
  | integer hn => exact ⟨_, shown_integer hn⟩
  | finite => exact shown_finite _
  | infinite =>
    have hword : IsWord "inf".toList :=
      ⟨'i', ['n', 'f'], rfl, isAlphabetic_of_isLower rfl, List.all_eq_true.mp rfl⟩
    have hname : IsIdentifier "inf" := ⟨hword, by decide⟩
    exact ⟨_, shown_lookup hname rfl rfl rfl⟩
  | allValues => exact ⟨_, shown_allValues⟩
  | @lookup name hname =>
    have hne : name ≠ "" := by
      rintro rfl
      exact hname.1.ne_nil rfl
    exact ⟨_, shown_lookup hname (if_neg hne) rfl rfl⟩
  | field hparent hname ih =>
    obtain ⟨ws, hws⟩ := ih
    exact shown_field hparent hws hname
  | @call f _ _ hf hname _ hindex ih =>
    have hword := isWord_of_isFunctionName (r.named _ _ hf).2
    exact shown_call hf ⟨hword, hname⟩ ih hindex
  | method hparent hname _ hindex ihparent ih =>
    obtain ⟨ws, hws⟩ := ihparent
    exact shown_method hparent hws hname ih hindex

end Expr

end ExprLang

import BlockLang.Node.Printer
import BlockLang.Proofs.Layout
import BlockLang.Proofs.Places

/-!
# Reading printed trees

A printed tree leaves out the places of its tokens and also some of the tokens. It is shown here
that nothing else is lost: two programs that are read from source texts are printed alike if and
only if they are equal apart from places.

A printed tree is a label, an opening parenthesis and parts that each end at a known character,
so it can be told from any text that comes after it. This is not so for all trees, since a token
may hold any text. It is so for the `Legible` ones, in which no printed text has a blank or a
closing parenthesis and every token that is left out has the one text that it can have. The texts
of lexemes are such texts.
-/

namespace BlockLang

open Lexeme (Kind)

/-- Texts that end at the first character of a kind are cut off in one way only. -/
theorem Text.append_cons_inj {d : Char} {x y s t : List Char} (first : d ∉ x) (second : d ∉ y)
    (same : x ++ d :: s = y ++ d :: t) : x = y ∧ s = t := by
  rcases List.append_eq_append_iff.mp same with ⟨gap, rfl, rest⟩ | ⟨gap, rfl, rest⟩
  · cases gap with
    | nil => simpa using rest
    | cons c gap =>
        obtain ⟨rfl, _⟩ := List.cons.inj rest
        simp at second
  · cases gap with
    | nil => simpa using rest.symm
    | cons c gap =>
        obtain ⟨rfl, _⟩ := List.cons.inj rest
        simp at first

namespace Token

/-- The token has no character that ends a text in a printed tree. -/
def IsBare (t : Token) : Prop :=
  ' ' ∉ t.text.toList ∧ ')' ∉ t.text.toList

variable {t t' : Token} {r r' : List Char}

theorem withoutPlace_eq {text : String} (first : t.text = text) (second : t'.text = text) :
    t.withoutPlace = t'.withoutPlace := by
  simp only [withoutPlace, first, second]

namespace IsBare

/-- The text of a bare token ends at the first blank. -/
theorem blank_inj (first : t.IsBare) (second : t'.IsBare)
    (same : t.text.toList ++ ' ' :: r = t'.text.toList ++ ' ' :: r') :
    t.withoutPlace = t'.withoutPlace ∧ r = r' := by
  obtain ⟨texts, rest⟩ := Text.append_cons_inj first.1 second.1 same
  exact ⟨withoutPlace_eq (String.toList_inj.mp texts) rfl, rest⟩

/-- The text of a bare token ends at the first closing parenthesis. -/
theorem paren_inj (first : t.IsBare) (second : t'.IsBare)
    (same : t.text.toList ++ ')' :: r = t'.text.toList ++ ')' :: r') :
    t.withoutPlace = t'.withoutPlace ∧ r = r' := by
  obtain ⟨texts, rest⟩ := Text.append_cons_inj first.2 second.2 same
  exact ⟨withoutPlace_eq (String.toList_inj.mp texts) rfl, rest⟩

end IsBare

end Token

namespace Node

/-- The tree with the places of all tokens taken away. -/
abbrev withoutPlaces : Node → Node :=
  mapTokens Token.withoutPlace Token.withoutPlace

/-- The trees with the places of all tokens taken away. -/
abbrev withoutPlacesAll : List Node → List Node :=
  mapTokensAll Token.withoutPlace Token.withoutPlace

mutual

/-- The printed texts of the tree end where they seem to, and the other tokens of the tree have
the only texts that they have in source texts. -/
def Legible : Node → Prop
  | .program stmts => LegibleAll stmts
  | .block brace stmts => brace.text = "\x7b" ∧ LegibleAll stmts
  | .varDecl type name equals init =>
    type.IsBare ∧ name.IsBare ∧ equals.text = "=" ∧ init.Legible
  | .assign name equals value => name.IsBare ∧ equals.text = "=" ∧ value.Legible
  | .conditional paren cond brace body =>
    paren.text = "(" ∧ cond.Legible ∧ brace.text = "\x7b" ∧ LegibleAll body
  | .print word value => word.text = "print" ∧ value.Legible
  | .binary op left right => op.IsBare ∧ left.Legible ∧ right.Legible
  | .ident name => name.IsBare
  | .intLit literal => literal.IsBare
  | .boolLit literal => literal.IsBare
  | .token _ => False
  | .absent => False

/-- All trees of the list are legible. -/
def LegibleAll : List Node → Prop
  | [] => True
  | node :: rest => node.Legible ∧ LegibleAll rest

end

/-- What a printed tree begins with, before the parenthesis. -/
def label : Node → String
  | .program _ => "Program"
  | .block _ _ => "Block"
  | .varDecl _ _ _ _ => "VarDecl"
  | .assign _ _ _ => "Assign"
  | .conditional _ _ _ _ => "If"
  | .print _ _ => "Print"
  | .binary _ _ _ => "BinOp"
  | .ident _ => "Ident"
  | .intLit _ => "Int"
  | .boolLit _ => "Bool"
  | .token _ => "Token"
  | .absent => "None"

/-- What a printed tree has after its label and the parenthesis. -/
def parts : Node → List Char
  | .program stmts => (renderList stmts).toList ++ [')']
  | .block _ stmts => (renderList stmts).toList ++ [')']
  | .varDecl type name _ init =>
    type.text.toList ++ ' ' :: (name.text.toList ++ ' ' :: '=' :: ' ' ::
      (init.render.toList ++ [')']))
  | .assign name _ value =>
    name.text.toList ++ ' ' :: '=' :: ' ' :: (value.render.toList ++ [')'])
  | .conditional _ cond _ body =>
    cond.render.toList ++ (", then=Block(".toList ++ ((renderList body).toList ++ [')', ')']))
  | .print _ value => value.render.toList ++ [')']
  | .binary op left right =>
    left.render.toList ++ ' ' :: (op.text.toList ++ ' ' :: (right.render.toList ++ [')']))
  | .ident name => name.text.toList ++ [')']
  | .intLit literal => literal.text.toList ++ [')']
  | .boolLit literal => literal.text.toList ++ [')']
  | .token _ => []
  | .absent => []

variable {a b : Node} {as bs : List Node} {s t : List Char}

theorem toList_render (h : a.Legible) : a.render.toList = a.label.toList ++ '(' :: a.parts := by
  cases a with
  | token | absent => exact h.elim
  | _ => simp [render, label, parts]

theorem paren_notMem_label (a : Node) : '(' ∉ a.label.toList := by
  cases a <;> simp [label]

/-- Trees that are printed alike have the same label, and their parts are printed alike. -/
theorem label_eq_and_parts_eq (first : a.Legible) (second : b.Legible)
    (same : a.render.toList ++ s = b.render.toList ++ t) :
    a.label = b.label ∧ a.parts ++ s = b.parts ++ t := by
  rw [toList_render first, toList_render second, List.append_assoc, List.append_assoc] at same
  obtain ⟨labels, parts⟩ :=
    Text.append_cons_inj (paren_notMem_label a) (paren_notMem_label b) same
  exact ⟨String.toList_inj.mp labels, parts⟩

/-- No printed tree begins with a bracket. -/
theorem render_ne_bracket (h : a.Legible) (s t : List Char) : a.render.toList ++ s ≠ ']' :: t := by
  rw [toList_render h]
  cases a <;> simp [label]

mutual

/-- A printed tree can be told from the text that comes after it. -/
theorem render_append_inj : ∀ {a b : Node} {s t : List Char}, a.Legible → b.Legible →
    a.render.toList ++ s = b.render.toList ++ t → a.withoutPlaces = b.withoutPlaces ∧ s = t
  | .program stmts, b, s, t, first, second, same => by
    -- Equal labels leave one form of the other tree, and the parts are cut off from the left.
    obtain ⟨labels, parts⟩ := label_eq_and_parts_eq first second same
    cases b with
    | program stmts' =>
        simp only [Node.parts, List.append_assoc, List.singleton_append] at parts
        obtain ⟨stmts, rest⟩ := renderList_append_inj first second parts
        exact ⟨congrArg Node.program stmts, (List.cons.inj rest).2⟩
    | _ => simp [label] at labels
  | .block brace stmts, b, s, t, first, second, same => by
    obtain ⟨labels, parts⟩ := label_eq_and_parts_eq first second same
    cases b with
    | block brace' stmts' =>
        obtain ⟨fixed, legible⟩ := first
        obtain ⟨fixed', legible'⟩ := second
        simp only [Node.parts, List.append_assoc, List.singleton_append] at parts
        obtain ⟨stmts, rest⟩ := renderList_append_inj legible legible' parts
        refine ⟨?_, (List.cons.inj rest).2⟩
        simp only [mapTokens, Token.withoutPlace_eq fixed fixed', stmts]
    | _ => simp [label] at labels
  | .varDecl type name equals init, b, s, t, first, second, same => by
    obtain ⟨labels, parts⟩ := label_eq_and_parts_eq first second same
    cases b with
    | varDecl type' name' equals' init' =>
        obtain ⟨bareType, bareName, fixed, legible⟩ := first
        obtain ⟨bareType', bareName', fixed', legible'⟩ := second
        simp only [Node.parts, List.append_assoc, List.cons_append, List.nil_append] at parts
        obtain ⟨types, afterType⟩ := bareType.blank_inj bareType' parts
        obtain ⟨names, afterName⟩ := bareName.blank_inj bareName' afterType
        simp only [List.cons.injEq, true_and] at afterName
        obtain ⟨inits, rest⟩ := render_append_inj legible legible' afterName
        refine ⟨?_, (List.cons.inj rest).2⟩
        simp only [mapTokens, types, names, Token.withoutPlace_eq fixed fixed', inits]
    | _ => simp [label] at labels
  | .assign name equals value, b, s, t, first, second, same => by
    obtain ⟨labels, parts⟩ := label_eq_and_parts_eq first second same
    cases b with
    | assign name' equals' value' =>
        obtain ⟨bare, fixed, legible⟩ := first
        obtain ⟨bare', fixed', legible'⟩ := second
        simp only [Node.parts, List.append_assoc, List.cons_append, List.nil_append] at parts
        obtain ⟨names, afterName⟩ := bare.blank_inj bare' parts
        simp only [List.cons.injEq, true_and] at afterName
        obtain ⟨values, rest⟩ := render_append_inj legible legible' afterName
        refine ⟨?_, (List.cons.inj rest).2⟩
        simp only [mapTokens, names, Token.withoutPlace_eq fixed fixed', values]
    | _ => simp [label] at labels
  | .conditional paren cond brace body, b, s, t, first, second, same => by
    obtain ⟨labels, parts⟩ := label_eq_and_parts_eq first second same
    cases b with
    | conditional paren' cond' brace' body' =>
        obtain ⟨fixedParen, legible, fixedBrace, legibleBody⟩ := first
        obtain ⟨fixedParen', legible', fixedBrace', legibleBody'⟩ := second
        simp only [Node.parts, List.append_assoc, List.cons_append, List.nil_append] at parts
        obtain ⟨conds, afterCond⟩ := render_append_inj legible legible' parts
        obtain ⟨bodies, rest⟩ := renderList_append_inj legibleBody legibleBody'
          (List.append_cancel_left afterCond)
        simp only [List.cons.injEq, true_and] at rest
        refine ⟨?_, rest⟩
        simp only [mapTokens, Token.withoutPlace_eq fixedParen fixedParen', conds,
          Token.withoutPlace_eq fixedBrace fixedBrace', bodies]
    | _ => simp [label] at labels
  | .print word value, b, s, t, first, second, same => by
    obtain ⟨labels, parts⟩ := label_eq_and_parts_eq first second same
    cases b with
    | print word' value' =>
        obtain ⟨fixed, legible⟩ := first
        obtain ⟨fixed', legible'⟩ := second
        simp only [Node.parts, List.append_assoc, List.singleton_append] at parts
        obtain ⟨values, rest⟩ := render_append_inj legible legible' parts
        refine ⟨?_, (List.cons.inj rest).2⟩
        simp only [mapTokens, Token.withoutPlace_eq fixed fixed', values]
    | _ => simp [label] at labels
  | .binary op left right, b, s, t, first, second, same => by
    obtain ⟨labels, parts⟩ := label_eq_and_parts_eq first second same
    cases b with
    | binary op' left' right' =>
        obtain ⟨bare, legibleLeft, legibleRight⟩ := first
        obtain ⟨bare', legibleLeft', legibleRight'⟩ := second
        simp only [Node.parts, List.append_assoc, List.cons_append, List.nil_append] at parts
        obtain ⟨lefts, afterLeft⟩ := render_append_inj legibleLeft legibleLeft' parts
        obtain ⟨ops, afterOp⟩ := bare.blank_inj bare' (List.cons.inj afterLeft).2
        obtain ⟨rights, rest⟩ := render_append_inj legibleRight legibleRight' afterOp
        refine ⟨?_, (List.cons.inj rest).2⟩
        simp only [mapTokens, ops, lefts, rights]
    | _ => simp [label] at labels
  | .ident name, b, s, t, first, second, same => by
    obtain ⟨labels, parts⟩ := label_eq_and_parts_eq first second same
    cases b with
    | ident name' =>
        simp only [Node.parts, List.append_assoc, List.singleton_append] at parts
        obtain ⟨tokens, rest⟩ := first.paren_inj second parts
        exact ⟨congrArg Node.ident tokens, rest⟩
    | _ => simp [label] at labels
  | .intLit literal, b, s, t, first, second, same => by
    obtain ⟨labels, parts⟩ := label_eq_and_parts_eq first second same
    cases b with
    | intLit literal' =>
        simp only [Node.parts, List.append_assoc, List.singleton_append] at parts
        obtain ⟨tokens, rest⟩ := first.paren_inj second parts
        exact ⟨congrArg Node.intLit tokens, rest⟩
    | _ => simp [label] at labels
  | .boolLit literal, b, s, t, first, second, same => by
    obtain ⟨labels, parts⟩ := label_eq_and_parts_eq first second same
    cases b with
    | boolLit literal' =>
        simp only [Node.parts, List.append_assoc, List.singleton_append] at parts
        obtain ⟨tokens, rest⟩ := first.paren_inj second parts
        exact ⟨congrArg Node.boolLit tokens, rest⟩
    | _ => simp [label] at labels

/-- A printed list of trees can be told from the text that comes after it. -/
theorem renderList_append_inj : ∀ {as bs : List Node} {s t : List Char}, LegibleAll as →
    LegibleAll bs → (renderList as).toList ++ s = (renderList bs).toList ++ t →
      withoutPlacesAll as = withoutPlacesAll bs ∧ s = t
  | [], [], s, t, _, _, same => ⟨rfl, List.append_cancel_left same⟩
  | [], b :: bs, s, t, _, second, same => by
    simp only [renderList, String.toList_append, List.append_assoc] at same
    exact absurd (List.cons.inj same).2.symm (render_ne_bracket second.1 _ _)
  | a :: as, [], s, t, first, _, same => by
    simp only [renderList, String.toList_append, List.append_assoc] at same
    exact absurd (List.cons.inj same).2 (render_ne_bracket first.1 _ _)
  | a :: as, b :: bs, s, t, first, second, same => by
    simp only [renderList, String.toList_append, List.append_assoc] at same
    obtain ⟨heads, afterHead⟩ := render_append_inj first.1 second.1 (List.append_cancel_left same)
    obtain ⟨tails, rest⟩ := renderRest_append_inj first.2 second.2 afterHead
    exact ⟨by simp only [mapTokensAll, heads, tails], rest⟩

/-- The trees after the first of a list end at the bracket. -/
theorem renderRest_append_inj : ∀ {as bs : List Node} {s t : List Char}, LegibleAll as →
    LegibleAll bs → (renderRest as).toList ++ ']' :: s = (renderRest bs).toList ++ ']' :: t →
      withoutPlacesAll as = withoutPlacesAll bs ∧ s = t
  | [], [], s, t, _, _, same => ⟨rfl, (List.cons.inj same).2⟩
  | [], b :: bs, s, t, _, _, same => by simp [renderRest] at same
  | a :: as, [], s, t, _, _, same => by simp [renderRest] at same
  | a :: as, b :: bs, s, t, first, second, same => by
    simp only [renderRest, String.toList_append, List.append_assoc] at same
    obtain ⟨heads, afterHead⟩ := render_append_inj first.1 second.1 (List.append_cancel_left same)
    obtain ⟨tails, rest⟩ := renderRest_append_inj first.2 second.2 afterHead
    exact ⟨by simp only [mapTokensAll, heads, tails], rest⟩

end

mutual

/-- Places are not printed. -/
theorem render_withoutPlaces : ∀ {a : Node}, a.Legible → a.withoutPlaces.render = a.render
  | .program _, h => by simp only [mapTokens, render, renderList_withoutPlaces h]
  | .block _ _, h => by simp only [mapTokens, render, renderList_withoutPlaces h.2]
  | .varDecl _ _ _ _, h => by
    simp only [mapTokens, render, Token.withoutPlace, render_withoutPlaces h.2.2.2]
  | .assign _ _ _, h => by
    simp only [mapTokens, render, Token.withoutPlace, render_withoutPlaces h.2.2]
  | .conditional _ _ _ _, h => by
    simp only [mapTokens, render, render_withoutPlaces h.2.1, renderList_withoutPlaces h.2.2.2]
  | .print _ _, h => by simp only [mapTokens, render, render_withoutPlaces h.2]
  | .binary _ _ _, h => by
    simp only [mapTokens, render, Token.withoutPlace, render_withoutPlaces h.2.1,
      render_withoutPlaces h.2.2]
  | .ident _, _ | .intLit _, _ | .boolLit _, _ => rfl

theorem renderList_withoutPlaces : ∀ {as : List Node}, LegibleAll as →
    renderList (withoutPlacesAll as) = renderList as
  | [], _ => rfl
  | _ :: _, h => by
    simp only [mapTokensAll, renderList, render_withoutPlaces h.1, renderRest_withoutPlaces h.2]

theorem renderRest_withoutPlaces : ∀ {as : List Node}, LegibleAll as →
    renderRest (withoutPlacesAll as) = renderRest as
  | [], _ => rfl
  | _ :: _, h => by
    simp only [mapTokensAll, renderRest, render_withoutPlaces h.1, renderRest_withoutPlaces h.2]

end

/-- Legible trees are printed alike if and only if they are equal apart from places. -/
theorem render_eq_iff (first : a.Legible) (second : b.Legible) :
    a.render = b.render ↔ a.withoutPlaces = b.withoutPlaces := by
  constructor
  · intro same
    have chars : a.render.toList ++ [] = b.render.toList ++ [] := by rw [same]
    exact (render_append_inj first second chars).1
  · intro same
    rw [← render_withoutPlaces first, same, render_withoutPlaces second]

-- Two statements are printed like one with a variable that no source text can name.
example :
    renderList [.print ⟨"print", 1, 0⟩ (.ident ⟨"x)), Print(Ident(y", 1, 6⟩)] =
      renderList [.print ⟨"print", 1, 0⟩ (.ident ⟨"x", 1, 6⟩),
        .print ⟨"print", 1, 9⟩ (.ident ⟨"y", 1, 15⟩)] := by
  cbv

theorem legibleAll_append : LegibleAll (as ++ bs) ↔ LegibleAll as ∧ LegibleAll bs := by
  induction as with
  | nil => simp [LegibleAll]
  | cons a as ih => simp [LegibleAll, ih, and_assoc]

end Node

/-- The text of the lexeme is the one of its kind, if there is only one, and has no character
that ends a text in a printed tree unless it is such a character itself. -/
structure Lexeme.Clear (l : Lexeme) : Prop where
  spelled : l.Spelled
  bare : l.kind ≠ .rightParen → l.token.IsBare

/-- The lexemes of a source text are clear. -/
theorem Scan.lexemes_clear (source : String) : ∀ l ∈ (ofSource source).lexemes, l.Clear := by
  intro l member
  refine ⟨lexemes_spelled source l member, ?_⟩
  intro other
  obtain ⟨before, after, stands⟩ := exists_stands member
  have blank : ∀ entry ∈ Kind.punctuation, entry.1 ≠ ' ' := by decide
  have paren : ∀ entry ∈ Kind.punctuation, entry.1 = ')' → entry.2 = .rightParen := by decide
  refine ⟨?_, ?_⟩
  · exact stands.form.notMem (by decide) fun known => blank _ known rfl
  · exact stands.form.notMem (by decide) fun known => other (paren _ known rfl)

namespace Terminal

variable {kind : Kind}

theorem text_eq {text : String} (l : Terminal [kind]) (clear : l.val.Clear)
    (spelling : kind.spelling? = some text) : l.val.token.text = text :=
  clear.spelled text (by rw [l.kind_eq, spelling])

theorem isBare {kinds : List Kind} (l : Terminal kinds) (clear : l.val.Clear)
    (other : .rightParen ∉ kinds) : l.val.token.IsBare :=
  clear.bare fun isParen => other (isParen ▸ l.property)

end Terminal

namespace Derivation

mutual

theorem Atom.legible : (atom : Atom) → (∀ l ∈ atom.lexemes, l.Clear) → atom.node.Legible
  | .number l, clear => l.isBare (clear _ (.head _)) (by decide)
  | .truth l, clear => l.isBare (clear _ (.head _)) (by decide)
  | .ident l, clear => l.isBare (clear _ (.head _)) (by decide)
  | .paren left inner right, clear =>
    inner.legible fun l member => clear l (by simp [Atom.lexemes, member])

theorem Expr.legible : (expr : Expr) → (∀ l ∈ expr.lexemes, l.Clear) → expr.node.Legible
  | .atom operand, clear => operand.legible clear
  | .binary left op right, clear => by
    refine ⟨op.isBare (clear _ ?_) (by decide), left.legible ?_, right.legible ?_⟩
    · simp [Expr.lexemes]
    · exact fun l member => clear l (by simp [Expr.lexemes, member])
    · exact fun l member => clear l (by simp [Expr.lexemes, member])

end

theorem Simple.legible (simple : Simple) (clear : ∀ l ∈ simple.lexemes, l.Clear) :
    simple.node.Legible := by
  cases simple with
  | decl type name equals init =>
      simp only [Simple.lexemes, List.forall_mem_cons] at clear
      obtain ⟨clearType, clearName, clearEquals, clearInit⟩ := clear
      exact ⟨type.isBare clearType (by decide), name.isBare clearName (by decide),
        equals.text_eq clearEquals rfl, init.legible clearInit⟩
  | assign name equals value =>
      simp only [Simple.lexemes, List.forall_mem_cons] at clear
      obtain ⟨clearName, clearEquals, clearValue⟩ := clear
      exact ⟨name.isBare clearName (by decide), equals.text_eq clearEquals rfl,
        value.legible clearValue⟩
  | print word left value right =>
      simp only [Simple.lexemes, List.forall_mem_cons, List.forall_mem_append] at clear
      obtain ⟨clearWord, _, clearValue, _⟩ := clear
      exact ⟨word.text_eq clearWord rfl, value.legible clearValue⟩

mutual

theorem Block.legible : (block : Block) → (∀ l ∈ block.lexemes, l.Clear) →
    block.brace.text = "\x7b" ∧ Node.LegibleAll block.nodes
  | .mk left body right, clear => by
    simp only [Block.lexemes, List.forall_mem_cons, List.forall_mem_append] at clear
    obtain ⟨clearLeft, clearBody, _⟩ := clear
    exact ⟨left.text_eq clearLeft rfl, body.legible clearBody⟩

theorem Stmt.legible : (stmt : Stmt) → (∀ l ∈ stmt.lexemes, l.Clear) → stmt.node.Legible
  | .simple inner semicolon, clear =>
    inner.legible fun l member => clear l (by simp [Stmt.lexemes, member])
  | .conditional word left cond right block, clear => by
    simp only [Stmt.lexemes, List.forall_mem_cons, List.forall_mem_append] at clear
    obtain ⟨_, clearLeft, clearCond, _, clearBlock⟩ := clear
    exact ⟨left.text_eq clearLeft rfl, cond.legible clearCond, block.legible clearBlock⟩
  | .block block, clear => block.legible clear

/-- The trees of clear lexemes are legible. -/
theorem Stmts.legible : (stmts : Stmts) → (∀ l ∈ stmts.lexemes, l.Clear) →
    Node.LegibleAll stmts.nodes
  | .empty, _ => trivial
  | .snoc init last, clear => by
    simp only [Stmts.lexemes, List.forall_mem_append] at clear
    exact Node.legibleAll_append.mpr ⟨init.legible clear.1, last.legible clear.2, trivial⟩

end

end Derivation

/-- Source texts are read as legible trees. -/
theorem Program.legible_of_parse {source : String} {p : Program}
    (parsed : parse source = .ok p) : p.toNode.Legible := by
  obtain ⟨_, list, same, rfl⟩ := parse_eq_ok_iff.mp parsed
  exact list.legible (same ▸ Scan.lexemes_clear source)

/-- The printed tree determines the program. Two programs that are read from source texts are
printed alike if and only if they are equal once the places of all their tokens are taken
away. -/
theorem printed_tree_determines_program {a b : String} {p q : Program}
    (first : Program.parse a = .ok p) (second : Program.parse b = .ok q) :
    p.toNode.render = q.toNode.render ↔ p.withoutPlaces = q.withoutPlaces := by
  rw [Node.render_eq_iff (Program.legible_of_parse first) (Program.legible_of_parse second)]
  simp only [Program.toNode, Node.mapTokens, Node.program.injEq, Program.withoutPlaces,
    Program.mapTokens, Program.mk.injEq]

/-- A source text with parentheses that matter. -/
def tightSource : String := "int x=01;print(x-(2+x));"

/-- The program of `tightSource`. -/
def Program.tight : Program where
  stmts := [
    .varDecl ⟨"int", 1, 0⟩ ⟨"x", 1, 4⟩ ⟨"=", 1, 5⟩ (.intLit ⟨"01", 1, 6⟩),
    .print ⟨"print", 1, 9⟩
      (.binary ⟨"-", 1, 16⟩ (.ident ⟨"x", 1, 15⟩)
        (.binary ⟨"+", 1, 19⟩ (.intLit ⟨"2", 1, 18⟩) (.ident ⟨"x", 1, 20⟩)))]

/-- The source text with other layout, and with parentheses that do not matter. -/
def looseSource : String := "int x = 01 ;\nprint( (x) - (2 + x) );"

/-- The program of `looseSource`. -/
def Program.loose : Program where
  stmts := [
    .varDecl ⟨"int", 1, 0⟩ ⟨"x", 1, 4⟩ ⟨"=", 1, 6⟩ (.intLit ⟨"01", 1, 8⟩),
    .print ⟨"print", 2, 0⟩
      (.binary ⟨"-", 2, 11⟩ (.ident ⟨"x", 2, 8⟩)
        (.binary ⟨"+", 2, 16⟩ (.intLit ⟨"2", 2, 14⟩) (.ident ⟨"x", 2, 18⟩)))]

/-- The source text without its parentheses. -/
def ungroupedSource : String := "int x=01;print(x-2+x);"

/-- The program of `ungroupedSource`. -/
def Program.ungrouped : Program where
  stmts := [
    .varDecl ⟨"int", 1, 0⟩ ⟨"x", 1, 4⟩ ⟨"=", 1, 5⟩ (.intLit ⟨"01", 1, 6⟩),
    .print ⟨"print", 1, 9⟩
      (.binary ⟨"+", 1, 18⟩
        (.binary ⟨"-", 1, 16⟩ (.ident ⟨"x", 1, 15⟩) (.intLit ⟨"2", 1, 17⟩))
        (.ident ⟨"x", 1, 19⟩))]

theorem printed_tree_determines_program_regrouped :
    Program.parse tightSource = .ok .tight ∧ Program.parse looseSource = .ok .loose ∧
      Program.parse ungroupedSource = .ok .ungrouped ∧
      Program.tight.toNode.render = Program.loose.toNode.render ∧
      Program.tight.toNode.render ≠ Program.ungrouped.toNode.render := by
  have tight : Program.parse tightSource = .ok .tight := by cbv
  have loose : Program.parse looseSource = .ok .loose := by cbv
  have ungrouped : Program.parse ungroupedSource = .ok .ungrouped := by cbv
  refine ⟨tight, loose, ungrouped, ?_, ?_⟩
  · exact (printed_tree_determines_program tight loose).mpr (by decide)
  · intro same
    have equal := (printed_tree_determines_program tight ungrouped).mp same
    exact absurd equal (by decide)

end BlockLang

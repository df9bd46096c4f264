import CSharpDraft.Fragment.Block
import CSharpDraft.Proofs.Fragment.Spacing

/-!
# What is asked of a parser

The layout of a block depends on a parser of C#, and what is proved of the layout on what the parser does. The laws
below say so of the block of a body. Each theorem takes those that it needs.

* `Tree.BlocksBraced`, `Tree.WellMade`, `Tree.Solid` : what trees are like;
* `Tree.slots` : the tokens of a block and the seams between them, which are where its statements start and end;
* `Parser.Covering`, `Parser.Shaped`, `Parser.Opening` : where a parser finds tokens and blocks in a text;
* `Parser.Spaced`, `Parser.Determined` : the blanks at the seams of a block mean nothing, and its tokens say what it is.
-/

set_option autoImplicit false

namespace CSharpDraft.Fragment

open Text (isBlank)

namespace Tree

/-- What holds of a tree if it holds of the trees below it holds of all trees. -/
@[elab_as_elim]
theorem induct {P : Tree → Prop} (leaf : ∀ t, P (.leaf t))
    (node : ∀ kind children, (∀ c ∈ children, P c) → P (.node kind children)) : ∀ t, P t
  | .leaf t => leaf t
  | .node kind children => node kind children (fun c _ => induct leaf node c)

/-! ## Tokens -/

@[simp] theorem tokensOf_append (cs ds : List Tree) : tokensOf (cs ++ ds) = tokensOf cs ++ tokensOf ds := by
  induction cs with
  | nil => rfl
  | cons c cs ih => rw [List.cons_append, tokensOf, ih, tokensOf, List.append_assoc]

theorem mem_tokensOf {cs : List Tree} {u : Token} : u ∈ tokensOf cs ↔ ∃ c ∈ cs, u ∈ tokens c := by
  induction cs with
  | nil => simp [tokensOf]
  | cons c cs ih => simp [tokensOf, ih]

theorem tokensOf_map_bare_of {cs : List Tree} (h : ∀ c ∈ cs, tokens c.bare = (tokens c).map Token.bare) :
    tokensOf (cs.map bare) = (tokensOf cs).map Token.bare := by
  induction cs with
  | nil => rfl
  | cons c cs ih =>
    rw [List.forall_mem_cons] at h
    rw [List.map_cons, tokensOf, tokensOf, List.map_append, h.1, ih h.2]

theorem tokens_bare (t : Tree) : tokens t.bare = (tokens t).map Token.bare := by
  induction t using Tree.induct with
  | leaf t => rfl
  | node kind children ih =>
    rw [bare_node]
    exact tokensOf_map_bare_of ih

theorem tokensOf_map_bare (cs : List Tree) : tokensOf (cs.map bare) = (tokensOf cs).map Token.bare :=
  tokensOf_map_bare_of (fun c _ => tokens_bare c)

mutual

theorem exists_tokens_of_firstBlock? (t : Tree) {b : Tree} (h : firstBlock? t = some b) :
    ∃ front back, tokens t = front ++ tokens b ++ back := by
  cases t with
  | leaf t => cases h
  | node kind children =>
    cases kind with
    | block =>
      cases h
      exact ⟨[], [], by simp⟩
    | statement | clause | conditional | other => exact exists_tokens_of_firstBlockOf? children h

theorem exists_tokens_of_firstBlockOf? (cs : List Tree) {b : Tree} (h : firstBlockOf? cs = some b) :
    ∃ front back, tokensOf cs = front ++ tokens b ++ back := by
  cases cs with
  | nil => cases h
  | cons c cs =>
    rw [firstBlockOf?] at h
    split at h
    · next hc =>
      cases h
      obtain ⟨front, back, htokens⟩ := exists_tokens_of_firstBlock? c hc
      exact ⟨front, back ++ tokensOf cs, by rw [tokensOf, htokens, List.append_assoc]⟩
    · obtain ⟨front, back, htokens⟩ := exists_tokens_of_firstBlockOf? cs h
      exact ⟨tokens c ++ front, back, by rw [tokensOf, htokens]; simp⟩

end

mutual

theorem isBlock_of_firstBlock? (t : Tree) {b : Tree} (h : firstBlock? t = some b) : b.isBlock = true := by
  cases t with
  | leaf t => cases h
  | node kind children =>
    cases kind with
    | block =>
      cases h
      rfl
    | statement | clause | conditional | other => exact isBlock_of_firstBlockOf? children h

theorem isBlock_of_firstBlockOf? (cs : List Tree) {b : Tree} (h : firstBlockOf? cs = some b) : b.isBlock = true := by
  cases cs with
  | nil => cases h
  | cons c cs =>
    rw [firstBlockOf?] at h
    split at h
    · next hc =>
      cases h
      exact isBlock_of_firstBlock? c hc
    · exact isBlock_of_firstBlockOf? cs h

end

/-! ## Forms of trees -/

/-- The trees are parts between two braces. -/
def Braced (children : List Tree) : Prop :=
  ∃ opening closing parts, children = leaf opening :: parts ++ [leaf closing] ∧ opening.isSymbol ['\x7b'] = true ∧
    closing.isSymbol ['\x7d'] = true ∧ ∀ c ∈ parts, c.isPart = true

/-- Every block of the tree is parts between two braces. -/
inductive BlocksBraced : Tree → Prop where
  | leaf (t : Token) : BlocksBraced (leaf t)
  | node {kind : NodeKind} {children : List Tree} :
    (kind = .block → Braced children) → (∀ c ∈ children, BlocksBraced c) → BlocksBraced (node kind children)

/-- Each node of the tree holds something, and each statement and clause starts with a part of its own. -/
inductive WellMade : Tree → Prop where
  | leaf (t : Token) : WellMade (leaf t)
  | node {kind : NodeKind} {children : List Tree} :
    children ≠ [] → (isStatement (node kind children) = true → ∀ c ∈ children.head?, c.isLaidOut = false) →
    (∀ c ∈ children, WellMade c) → WellMade (node kind children)

theorem WellMade.tokens_ne_nil {t : Tree} (h : t.WellMade) : tokens t ≠ [] := by
  induction h with
  | leaf t => exact List.cons_ne_nil t []
  | @node kind children hne _ _ ih =>
    obtain ⟨c, cs, rfl⟩ := List.exists_cons_of_ne_nil hne
    rw [tokens, tokensOf]
    exact List.append_ne_nil_of_left_ne_nil (ih c List.mem_cons_self) _

theorem tokensOf_ne_nil {cs : List Tree} (hne : cs ≠ []) (h : ∀ c ∈ cs, c.WellMade) : tokensOf cs ≠ [] := by
  obtain ⟨c, cs, rfl⟩ := List.exists_cons_of_ne_nil hne
  rw [tokensOf]
  exact List.append_ne_nil_of_left_ne_nil (h c List.mem_cons_self).tokens_ne_nil _

/-- No leaf of the tree is blank. A node without anything in it would be a leaf, too. -/
inductive Solid : Tree → Prop where
  | leaf {t : Token} : isBlank t.text = false → Solid (leaf t)
  | node {kind : NodeKind} {children : List Tree} :
    children ≠ [] → (∀ c ∈ children, Solid c) → Solid (node kind children)

/-! ## Seams -/

/-- The first of the tokens stands at a seam, too. -/
def seamed : List (Bool × Token) → List (Bool × Token)
  | [] => []
  | (_, u) :: us => (true, u) :: us

/-- The tokens of a row that is not laid out. -/
def seamless (us : List Token) : List (Bool × Token) := us.map (fun u => (false, u))

mutual

/-- The tokens of a tree that is laid out, each with whether it stands at a seam: where a block, a statement or a clause
starts, or behind one. What is no part of a block, statement or clause has no seams in it. -/
def slots : Tree → List (Bool × Token)
  | leaf t => [(false, t)]
  | node kind children => rowSlots (kind == .block) false children

/-- The same for the trees of a row, of which the first one may stand behind something that is laid out. -/
def rowSlots (inBlock behind : Bool) : List Tree → List (Bool × Token)
  | [] => []
  | c :: cs =>
    (if inBlock || c.isLaidOut then seamed (slots c)
      else if behind then seamed (seamless (tokens c)) else seamless (tokens c)) ++ rowSlots inBlock c.isLaidOut cs

end

@[simp] theorem seamed_seamed (us : List (Bool × Token)) : seamed (seamed us) = seamed us := by
  cases us <;> rfl

@[simp] theorem map_snd_seamed (us : List (Bool × Token)) : (seamed us).map Prod.snd = us.map Prod.snd := by
  cases us <;> rfl

@[simp] theorem map_snd_seamless (us : List Token) : (seamless us).map Prod.snd = us := by
  simp [seamless, Function.comp_def]

@[simp] theorem seamed_eq_nil {us : List (Bool × Token)} : seamed us = [] ↔ us = [] := by
  cases us <;> simp [seamed]

theorem seamed_append {us : List (Bool × Token)} (h : us ≠ []) (vs : List (Bool × Token)) :
    seamed (us ++ vs) = seamed us ++ vs := by
  obtain ⟨u, us, rfl⟩ := List.exists_cons_of_ne_nil h
  rfl

/-- Where something follows that starts at a seam, it does so behind other tokens as well. -/
theorem seamed_append_seamed (us vs : List (Bool × Token)) : seamed (us ++ seamed vs) = seamed us ++ seamed vs := by
  cases us with
  | nil => exact seamed_seamed vs
  | cons u us => rfl

theorem map_snd_rowSlots {cs : List Tree} (h : ∀ c ∈ cs, (slots c).map Prod.snd = tokens c) (inBlock behind : Bool) :
    (rowSlots inBlock behind cs).map Prod.snd = tokensOf cs := by
  induction cs generalizing behind with
  | nil => rfl
  | cons c cs ih =>
    rw [List.forall_mem_cons] at h
    rw [rowSlots, tokensOf, List.map_append, ih h.2]
    congr 1
    split
    · rw [map_snd_seamed, h.1]
    · split
      · rw [map_snd_seamed, map_snd_seamless]
      · exact map_snd_seamless _

/-- The slots of a tree hold its tokens. -/
theorem map_snd_slots (t : Tree) : (slots t).map Prod.snd = tokens t := by
  induction t using induct with
  | leaf t => rfl
  | node kind children ih => exact map_snd_rowSlots ih _ _

/-- Each tree of a block stands at a seam. -/
theorem rowSlots_inBlock (cs : List Tree) (behind : Bool) :
    rowSlots true behind cs = cs.flatMap (fun c => seamed (slots c)) := by
  induction cs generalizing behind with
  | nil => rfl
  | cons c cs ih => rw [rowSlots, ih, Bool.true_or, if_pos rfl, List.flatMap_cons]

end Tree

/-! ## Laws -/

namespace Parser

section Laws

variable [Parser] (lex : Text → Option (List Token))

/-- The tokens of a text stand one behind the other with nothing but blanks between them, and the leaves of a tree are the
tokens of its text. -/
structure Covering : Prop where
  cut : ∀ {s : Text} {us : List Token}, lex s = some us →
    ∃ blanks, s = written us ++ blanks ∧ (∀ c ∈ blanks, isGapChar c = true) ∧ ∀ u ∈ us, WellCut u
  leaves : ∀ {s : Text} {t : Tree}, parse? s = some t → lex s = some t.tokens

/-- The block of a body is a tree of C#: its blocks have braces, and none of its nodes is empty. -/
structure Shaped : Prop where
  braced : ∀ {body : Text} {b : Tree}, bodyBlock? body = some b → b.BlocksBraced
  wellMade : ∀ {body : Text} {b : Tree}, bodyBlock? body = some b → b.WellMade

/-- A body that starts with a brace starts with its block. -/
structure Opening : Prop where
  starts : ∀ {body : Text} {b : Tree}, bodyBlock? body = some b → (Text.trim body).head? = some '\x7b' →
    ∃ rest, Text.trim body = b.text ++ rest

/-- A text that holds the tokens of a block, with other blanks at its seams, is made of these tokens. -/
structure Spaced : Prop where
  lex_respaced : ∀ {body text : Text} {b : Tree}, bodyBlock? body = some b → Respaced b.slots ('\n' :: text) →
    ∃ us, lex text = some us ∧ us.map Token.kind = b.tokens.map Token.kind ∧ code us = code b.tokens

/-- The tree of a block is determined by its tokens. -/
structure Determined : Prop where
  exists_block : ∀ {body : Text} {b : Tree} {us : List Token}, bodyBlock? body = some b →
    (∀ u ∈ b.tokens, u.isPlain = true) → lex (spelling us) = some us → Regapped b.slots us →
    ∃ b', bodyBlock? (spelling us) = some b' ∧ b'.bare = b.bare

end Laws

end Parser

section Block

variable [Parser] {lex : Text → Option (List Token)} {body : Text} {b : Tree} (hb : bodyBlock? body = some b)
include hb

theorem isBlock_of_bodyBlock? : b.isBlock = true := by
  obtain ⟨t, -, hfirst⟩ := Option.bind_eq_some_iff.mp hb
  exact Tree.isBlock_of_firstBlock? t hfirst

/-- The tokens of a block stand one behind the other in its file. -/
theorem exists_lex_wrapBody (h : Parser.Covering lex) :
    ∃ front back, lex (wrapBody body) = some (front ++ b.tokens ++ back) := by
  obtain ⟨t, hparse, hfirst⟩ := Option.bind_eq_some_iff.mp hb
  obtain ⟨front, back, htokens⟩ := Tree.exists_tokens_of_firstBlock? t hfirst
  exact ⟨front, back, htokens ▸ h.leaves hparse⟩

theorem wellCut_of_bodyBlock? (h : Parser.Covering lex) : ∀ u ∈ b.tokens, WellCut u := by
  obtain ⟨front, back, htokens⟩ := exists_lex_wrapBody hb h
  obtain ⟨-, -, -, hcut⟩ := h.cut htokens
  exact fun u hu => hcut u (by simp [hu])

theorem formatBlock_eq : formatBlock body = b.blockLines := by
  unfold formatBlock
  simp only [hb]

end Block

end CSharpDraft.Fragment

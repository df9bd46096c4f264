import CSharpDraft.Fragment.Tree
import CSharpDraft.Proofs.Text.Collapse
import Mathlib.Data.List.Forall2

/-!
# Tokens and the blanks between them

* `written` : the source text of tokens, with all blanks;
* `WellCut` : what a token is like that was cut from a text;
* `Token.bare`, `Tree.bare` : tokens and trees without their gaps;
* `Respaced` : a text holds tokens with other blanks between them;
* `eq_of_written_append` : a text that holds tokens in one way holds them in no other.
-/

set_option autoImplicit false

namespace CSharpDraft.Fragment

open Text (EndsSolid StartsSolid OneLine squeeze)

/-! ## Characters -/

/-- The characters of gaps and the blank ones. No token goes on with them, unless they are inside of it. -/
def isStop (c : Char) : Bool := isGapChar c || Text.isBlankChar c

theorem isBlankChar_of_not_isStop {c : Char} (h : isStop c = false) : Text.isBlankChar c = false :=
  (Bool.or_eq_false_iff.mp h).2

theorem isGapChar_of_not_isStop {c : Char} (h : isStop c = false) : isGapChar c = false := (Bool.or_eq_false_iff.mp h).1

theorem isStop_of_isGapChar {c : Char} (h : isGapChar c = true) : isStop c = true := by
  rw [isStop, h, Bool.true_or]

theorem isStop_of_isBlankChar {c : Char} (h : Text.isBlankChar c = true) : isStop c = true := by
  rw [isStop, h, Bool.or_true]

theorem eq_space_of_mem_margins {depth : Nat} {c : Char} (h : c ∈ (List.replicate depth Text.margin).flatten) :
    c = ' ' := by
  obtain ⟨l, hl, hc⟩ := List.mem_flatten.mp h
  rw [List.eq_of_mem_replicate hl] at hc
  simpa [Text.margin] using hc

/-! ## Texts of tokens -/

/-- The source text of the tokens, with all blanks. -/
def written (us : List Token) : Text := us.flatMap (fun u => u.gap ++ u.text)

@[simp] theorem written_nil : written [] = [] := rfl

@[simp] theorem written_cons (u : Token) (us : List Token) : written (u :: us) = u.gap ++ (u.text ++ written us) := by
  simp [written]

theorem written_append (us vs : List Token) : written (us ++ vs) = written us ++ written vs := List.flatMap_append

theorem spelling_cons (u : Token) (us : List Token) : spelling (u :: us) = u.text ++ written us := rfl

theorem spelling_singleton (u : Token) : spelling [u] = u.text := List.append_nil u.text

/-! ## Tokens -/

namespace Token

def bare (t : Token) : Token := { t with gap := [] }

/-- The token is neither a comment nor a directive. -/
def isPlain (t : Token) : Bool := !t.isTrivia && t.kind != .conditional

/-- A token that may have blanks and line breaks in its text, apart from comments and directives. -/
def isLiteral (t : Token) : Bool :=
  match t.kind with
  | .character | .string | .interpolated _ => true
  | _ => false

@[simp] theorem kind_bare (t : Token) : t.bare.kind = t.kind := rfl

@[simp] theorem text_bare (t : Token) : t.bare.text = t.text := rfl

@[simp] theorem isTrivia_bare (t : Token) : t.bare.isTrivia = t.isTrivia := rfl

theorem bare_eq_iff {t u : Token} : u.bare = t.bare ↔ u.kind = t.kind ∧ u.text = t.text := by
  simp [bare]

theorem isTrivia_of_isPlain {t : Token} (h : t.isPlain = true) : t.isTrivia = false := by
  rw [isPlain, Bool.and_eq_true] at h
  simpa using h.1

theorem ne_comment_of_isPlain {t : Token} (h : t.isPlain = true) : t.kind ≠ .comment := by
  intro hk
  rw [isPlain, isTrivia, hk] at h
  cases h

theorem isTrivia_of_isSymbol {t : Token} {x : Text} (h : t.isSymbol x = true) : t.isTrivia = false := by
  rw [isSymbol, Bool.and_eq_true] at h
  rw [isTrivia, eq_of_beq h.1]
  rfl

theorem isPlain_of_isSymbol {t : Token} {x : Text} (h : t.isSymbol x = true) : t.isPlain = true := by
  rw [isPlain, isTrivia_of_isSymbol h]
  rw [isSymbol, Bool.and_eq_true] at h
  rw [eq_of_beq h.1]
  rfl

theorem kind_of_isSymbol {t : Token} {x : Text} (h : t.isSymbol x = true) : t.kind = .symbol := by
  rw [isSymbol, Bool.and_eq_true] at h
  exact eq_of_beq h.1

theorem text_of_isSymbol {t : Token} {x : Text} (h : t.isSymbol x = true) : t.text = x := by
  rw [isSymbol, Bool.and_eq_true] at h
  exact eq_of_beq h.2

end Token

/-- What a token is like that was cut from a text. -/
structure WellCut (u : Token) : Prop where
  gap : ∀ c ∈ u.gap, isGapChar c = true
  starts : ∃ c y, u.text = c :: y ∧ isStop c = false
  ends : ¬ ['/', '/'] <+: u.text → EndsSolid u.text
  comment : ['/', '/'] <+: u.text → u.kind = .comment
  /-- Only literals, comments and directives may have line breaks in them. -/
  oneLine : u.isPlain = true → u.isLiteral = false → OneLine u.text

theorem WellCut.startsSolid {u : Token} (h : WellCut u) (t : Text) : StartsSolid (u.text ++ t) := by
  obtain ⟨c, y, hx, hc⟩ := h.starts
  exact ⟨c, y ++ t, by rw [hx]; rfl, isBlankChar_of_not_isStop hc⟩

/-- The tokens that are no comments, without their blanks. -/
def code (us : List Token) : List (TokenKind × Text) :=
  (us.filter (fun u => u.kind != .comment)).map (fun u => (u.kind, u.text))

theorem code_cons_of_ne {u v : Token} {us vs : List Token} (hkind : v.kind = u.kind)
    (htext : u.kind ≠ .comment → v.text = u.text) (h : code vs = code us) : code (v :: vs) = code (u :: us) := by
  by_cases hu : u.kind = .comment
  · simpa [code, hu, hkind] using h
  · simpa [code, hu, hkind, htext hu] using h

theorem exists_mem_of_mem_code {us : List Token} {k : TokenKind} {x : Text} (h : (k, x) ∈ code us) :
    ∃ u ∈ us, u.kind = k ∧ u.text = x := by
  obtain ⟨u, hu, heq⟩ := List.mem_map.mp h
  cases heq
  exact ⟨u, (List.mem_filter.mp hu).1, rfl, rfl⟩

theorem mem_code {us : List Token} {u : Token} (h : u ∈ us) (hk : u.kind ≠ .comment) : (u.kind, u.text) ∈ code us :=
  List.mem_map.mpr ⟨u, List.mem_filter.mpr ⟨h, by simpa using hk⟩, rfl⟩

theorem map_bare_of_code {us vs : List Token} (hcomment : ∀ u ∈ us, u.kind ≠ .comment)
    (hkinds : vs.map Token.kind = us.map Token.kind) (hcode : code vs = code us) :
    vs.map Token.bare = us.map Token.bare := by
  induction us generalizing vs with
  | nil => rw [List.map_eq_nil_iff.mp hkinds]
  | cons u us ih =>
    obtain ⟨v, vs, rfl, hkind, hrest⟩ := List.map_eq_cons_iff.mp hkinds
    rw [List.forall_mem_cons] at hcomment
    have hv : v.kind ≠ .comment := hkind ▸ hcomment.1
    rw [code, code, List.filter_cons_of_pos (by simpa using hv), List.filter_cons_of_pos (by simpa using hcomment.1)]
      at hcode
    obtain ⟨hfirst, hcode⟩ := List.cons.inj hcode
    rw [List.map_cons, List.map_cons, ih hcomment.2 hrest hcode,
      Token.bare_eq_iff.mpr ⟨hkind, (Prod.mk.inj hfirst).2⟩]

/-! ## Trees -/

namespace Tree

mutual

def bare : Tree → Tree
  | leaf t => leaf t.bare
  | node kind children => node kind (bareRow children)

def bareRow : List Tree → List Tree
  | [] => []
  | c :: cs => bare c :: bareRow cs

end

theorem bareRow_eq (cs : List Tree) : bareRow cs = cs.map bare := by
  induction cs with
  | nil => rfl
  | cons c cs ih => rw [bareRow, ih, List.map_cons]

theorem bare_node (kind : NodeKind) (children : List Tree) :
    bare (node kind children) = node kind (children.map bare) := by
  rw [bare, bareRow_eq]

@[simp] theorem isTrivia_bare (c : Tree) : c.bare.isTrivia = c.isTrivia := by
  cases c <;> rfl

theorem map_bare_group (kind : NodeKind) (row : List Tree) : (group kind row).map bare = group kind (row.map bare) := by
  have hcomp : isTrivia ∘ bare = isTrivia := funext isTrivia_bare
  rw [group, group, List.map_append, List.map_singleton, bare_node, List.takeWhile_map, List.dropWhile_map, hcomp]

end Tree

/-! ## Other blanks -/

/-- The text of a token in its new place: a comment may have other blanks in it. -/
def Keeps (u : Token) (x : Text) : Prop := x = u.text ∨ (u.kind = .comment ∧ x = squeeze [] u.text)

/-- The text starts a line, if there is anything of it. -/
def StartsLine (t : Text) : Prop := ∀ c q, t = c :: q → c = '\n' ∨ c = '\r'

/-- The text ends its line after some blanks at most. -/
def EndsLine (r : Text) : Prop :=
  ∃ b q, r = b ++ '\n' :: q ∧ ∀ c ∈ b, Text.isBlankChar c = true ∧ c ≠ '\n'

/-- Behind the gap `g` and in front of `t`, the text `x` stands for the token. A gap stays one, and there is a new one at
most at a seam. What takes its line has nothing behind it, and a directive has a line of its own. -/
structure StandsFor (seam : Bool) (u : Token) (g x t : Text) : Prop where
  blank : ∀ c ∈ g, isGapChar c = true
  gap : g = [] → u.gap = []
  tight : u.gap = [] → g = [] ∨ seam = true
  keeps : Keeps u x
  line : ['/', '/'] <+: u.text → StartsLine t
  directive : u.kind = .directive → '\n' ∈ g ∧ EndsLine t
  conditional : u.kind ≠ .conditional

/-- The text holds the tokens with other blanks between them. Each token comes with whether it stands at a seam. -/
inductive Respaced : List (Bool × Token) → Text → Prop where
  | nil {b : Text} : (∀ c ∈ b, isGapChar c = true) → Respaced [] b
  | cons {seam : Bool} {u : Token} {us : List (Bool × Token)} {g x t : Text} :
    StandsFor seam u g x t → Respaced us t → Respaced ((seam, u) :: us) (g ++ (x ++ t))

/-- The same tokens with other gaps. Apart from the seams there are gaps where there were some. -/
def Regapped (us : List (Bool × Token)) (vs : List Token) : Prop :=
  List.Forall₂ (fun u v => v.bare = u.2.bare ∧ (u.1 = false → v.isTight = u.2.isTight)) us vs

/-! ## Texts that hold tokens -/

theorem eq_and_eq_of_append {p : Char → Bool} {g g' x x' : Text} (hg : ∀ c ∈ g, p c = true)
    (hg' : ∀ c ∈ g', p c = true) (hx : ∀ c ∈ x.head?, p c = false) (hx' : ∀ c ∈ x'.head?, p c = false)
    (h : g ++ x = g' ++ x') : g = g' ∧ x = x' := by
  have hcut : ∀ {w z : Text}, (∀ c ∈ w, p c = true) → (∀ c ∈ z.head?, p c = false) → (w ++ z).takeWhile p = w := by
    intro w z hw hz
    rw [List.takeWhile_append_of_pos hw]
    cases z with
    | nil => simp
    | cons c z => simp [hz c rfl]
  have hgap := (hcut hg hx).symm.trans ((congrArg _ h).trans (hcut hg' hx'))
  rw [hgap] at h
  exact ⟨hgap, List.append_cancel_left h⟩

/-- A text that holds tokens in one way holds them in no other. -/
theorem eq_of_written_append {us vs : List Token} (hbare : us.map Token.bare = vs.map Token.bare)
    (hus : ∀ u ∈ us, WellCut u) (hvs : ∀ v ∈ vs, ∀ c ∈ v.gap, isGapChar c = true) {b b' : Text}
    (h : written us ++ b = written vs ++ b') : us = vs ∧ b = b' := by
  induction us generalizing vs with
  | nil =>
    obtain rfl := List.map_eq_nil_iff.mp hbare.symm
    exact ⟨rfl, h⟩
  | cons u us ih =>
    obtain ⟨v, vs, rfl, hv, hrest⟩ := List.map_eq_cons_iff.mp hbare.symm
    rw [List.forall_mem_cons] at hus hvs
    obtain ⟨hkind, htext⟩ := Token.bare_eq_iff.mp hv
    have hsolid : ∀ z : Text, ∀ c ∈ (u.text ++ z).head?, isGapChar c = false := by
      intro z c hc
      obtain ⟨d, y, hx, hd⟩ := hus.1.starts
      rw [hx] at hc
      cases hc
      exact isGapChar_of_not_isStop hd
    rw [written_cons, written_cons, htext, List.append_assoc, List.append_assoc, List.append_assoc, List.append_assoc] at h
    obtain ⟨hgap, htail⟩ := eq_and_eq_of_append hus.1.gap hvs.1 (hsolid _) (hsolid _) h
    obtain ⟨rfl, rfl⟩ := ih hrest.symm hus.2 hvs.2 (List.append_cancel_left htail)
    obtain ⟨kind, gap, text⟩ := u
    obtain ⟨kind', gap', text'⟩ := v
    obtain rfl : kind' = kind := hkind
    obtain rfl : gap = gap' := hgap
    obtain rfl : text' = text := htext
    exact ⟨rfl, rfl⟩

end CSharpDraft.Fragment

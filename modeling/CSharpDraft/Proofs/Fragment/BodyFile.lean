import CSharpDraft.Proofs.Fragment.Reach
import CSharpDraft.Proofs.Fragment.Seams

/-!
# The file around a body

A body is read as the body of a method in a file made for it. For a body that starts with a brace, the first block of
that file starts with this brace and ends inside the body.

* `bodyFront` : the tokens of the file up to the brace, which are always the same (`exists_tokens_of_brace`);
* `reach_bodyFront` : the first block of a file with these tokens in front starts with the last of them;
* `exists_rest_of_brace` : the body is the source text of its block and a rest.
-/

set_option autoImplicit false

namespace CSharpDraft.Fragment

/-! ## In front of the body -/

/-- The tokens in front of a body that starts with a brace, and this brace. -/
def bodyFront : List Token :=
  [⟨.word, [], "class".toList⟩, ⟨.word, [' '], "__Fragment".toList⟩, ⟨.symbol, [' '], ['\x7b']⟩,
    ⟨.word, [' '], "void".toList⟩, ⟨.word, [' '], "__Body".toList⟩, ⟨.symbol, [], ['(']⟩, ⟨.symbol, [], [')']⟩,
    ⟨.symbol, [' '], ['\x7b']⟩]

theorem nextToken_brace (y : Text) : nextToken [] ('\x7b' :: y) = some (.symbol, (['\x7b'], y), []) := by
  cases y <;> rfl

theorem reads_bodyFront (y : Text) :
    Reads [] ("class __Fragment \x7b void __Body() ".toList ++ '\x7b' :: y) bodyFront [] y := by
  have hspace : ∀ c ∈ [' '], isGapChar c = true := List.forall_mem_singleton.mpr rfl
  refine .next (u := ⟨.word, [], "class".toList⟩) nofun rfl ?_
  refine .next (u := ⟨.word, [' '], "__Fragment".toList⟩) hspace rfl ?_
  refine .next (u := ⟨.symbol, [' '], ['\x7b']⟩) hspace rfl ?_
  refine .next (u := ⟨.word, [' '], "void".toList⟩) hspace rfl ?_
  refine .next (u := ⟨.word, [' '], "__Body".toList⟩) hspace rfl ?_
  refine .next (u := ⟨.symbol, [], ['(']⟩) nofun rfl ?_
  refine .next (u := ⟨.symbol, [], [')']⟩) nofun rfl ?_
  exact .next (u := ⟨.symbol, [' '], ['\x7b']⟩) hspace (nextToken_brace y) (.done [] y)

/-- The tokens of the file around a body that starts with a brace. -/
theorem exists_tokens_of_brace {body y : Text} (hbrace : Text.trim body = '\x7b' :: y) {ts : List Token}
    (hts : tokens? (wrapBody body) = some ts) :
    ∃ us blanks, ts = bodyFront ++ us ∧ Reads [] (y ++ [' ', '\x7d']) us [] blanks := by
  have hreads : Reads [] (wrapBody body) bodyFront [] (y ++ [' ', '\x7d']) := by
    unfold wrapBody
    rw [hbrace, List.append_assoc, List.cons_append]
    exact reads_bodyFront _
  exact exists_tokens_of_reads hreads hts

theorem reach_bodyFront : reach grammar bodyFront 60 (.many (.rule .topLevel)) 0 = [.upTo 0, .blockAt 7] := by
  decide +kernel

/-! ## Brackets -/

def Token.opens (t : Token) : Bool := t.kind == .symbol && openingBrackets.contains t.text

def Token.closes (t : Token) : Bool := t.kind == .symbol && closingBrackets.contains t.text

/-- Tokens whose brackets match close as many as they open. -/
theorem countP_of_bracketsMatch {due : List Text} {ts : List Token} (h : bracketsMatch due ts = true) :
    due.length + ts.countP Token.opens = ts.countP Token.closes := by
  fun_induction bracketsMatch due ts with
  | case1 due => simpa using h
  | case2 due t ts hk ih =>
    have hkind : t.kind ≠ .symbol := by simpa using hk
    simpa [List.countP_cons, Token.opens, Token.closes, hkind] using ih h
  | case3 due t ts hk ht ih | case4 due t ts hk _ ht ih | case5 due t ts hk _ _ ht ih =>
    have hopens : t.opens = true := by simp_all [Token.opens, openingBrackets]
    have hcloses : t.closes = false := by simp_all [Token.closes, closingBrackets]
    have hrest := ih h
    rw [List.length_cons] at hrest
    rw [List.countP_cons_of_pos hopens, List.countP_cons_of_neg (by simp [hcloses])]
    omega
  | case6 due t ts hk _ _ _ ht ih =>
    have hopens : t.opens = false := by simp_all [Token.opens, openingBrackets]
    have hcloses : t.closes = true := by simp_all [Token.closes, closingBrackets]
    rw [Bool.and_eq_true] at h
    obtain ⟨hdue, h⟩ := h
    have hrest := ih h
    rw [List.countP_cons_of_neg (by simp [hopens]), List.countP_cons_of_pos hcloses]
    cases due with
    | nil => simp at hdue
    | cons x due =>
      rw [List.tail_cons] at hrest
      rw [List.length_cons]
      omega
  | case7 due t ts hk _ _ _ ht ih =>
    have hopens : t.opens = false := by simp_all [Token.opens, openingBrackets]
    have hcloses : t.closes = false := by simp_all [Token.closes, closingBrackets]
    rw [List.countP_cons_of_neg (by simp [hopens]), List.countP_cons_of_neg (by simp [hcloses])]
    exact ih h

theorem closingBrackets_of_opening {x : Text} (h : openingBrackets.contains x = true) :
    closingBrackets.contains x = false := by
  rw [List.contains_iff_mem] at h
  simp only [openingBrackets, List.mem_cons, List.not_mem_nil, or_false] at h
  rcases h with rfl | rfl | rfl <;> decide

theorem count_of_nestSymbol? {t : Token} {s m : List Opened} (hk : t.kind = .symbol)
    (h : nestSymbol? t.text s = some m) :
    s.count .bracket + [t].countP Token.opens = m.count .bracket + [t].countP Token.closes := by
  have hopens : t.opens = openingBrackets.contains t.text := by rw [Token.opens, hk]; rfl
  have hcloses : t.closes = closingBrackets.contains t.text := by rw [Token.closes, hk]; rfl
  rw [List.countP_singleton, List.countP_singleton, hopens, hcloses]
  unfold nestSymbol? at h
  split at h
  · next hopening =>
    cases h
    rw [hopening, closingBrackets_of_opening hopening, List.count_cons_self]
    rfl
  · split at h
    · split at h
      · cases h
        simp_all
      · cases h
    · next hclosing =>
      cases h
      simp_all

/-- What is open behind a token is what was open in front of it, with the brackets of the token. -/
theorem count_of_nest? {t : Token} {s m : List Opened} (h : nest? t.kind t.text s = some m) :
    s.count .bracket + [t].countP Token.opens = m.count .bracket + [t].countP Token.closes := by
  by_cases hk : t.kind = .symbol
  · rw [hk] at h
    exact count_of_nestSymbol? hk h
  · have hnone : [t].countP Token.opens = 0 ∧ [t].countP Token.closes = 0 := by simp [Token.opens, Token.closes, hk]
    rw [hnone.1, hnone.2]
    unfold nest? at h
    split at h
    · next hsymbol => exact absurd hsymbol hk
    · cases h
      simp
    · split at h <;> cases h
      rfl
    · split at h <;> cases h
      simp
    · cases h
      rfl

theorem count_of_tokensNest {us : List Token} {s s' : List Opened} (h : TokensNest us s s') :
    s.count .bracket + us.countP Token.opens = s'.count .bracket + us.countP Token.closes := by
  induction us generalizing s with
  | nil =>
    cases h
    rfl
  | cons u us ih =>
    obtain ⟨-, m, hu, hus⟩ := h
    have hfirst := count_of_nest? hu
    have hrest := ih hus
    rw [← List.singleton_append, List.countP_append, List.countP_append]
    omega

/-! ## The block of a body -/

/-- A block starts with an opening brace and ends with a closing one. -/
theorem ReadAsBlock.exists_tokens {b : Tree} (h : ReadAsBlock b) :
    ∃ opening inner closing, b.tokens = opening :: (inner ++ [closing]) ∧ closing.text = ['\x7d'] := by
  obtain ⟨ts, row, rest, hmatch, rfl⟩ := h
  obtain ⟨opening, closing, parts, hchildren, -, hclosing, -⟩ := hmatch.braced
  refine ⟨opening, Tree.tokensOf parts, closing, ?_, Token.text_of_isSymbol hclosing⟩
  rw [hchildren]
  simp [Tree.tokens, Tree.tokensOf]

/-- The first block of a file with these tokens in front starts with the last of them. -/
theorem exists_tokens_of_bodyFront {us rest : List Token} {row : List Tree} {b : Tree}
    (h : Matches grammar (.many (.rule .topLevel)) (bodyFront ++ us) row rest) (hb : Tree.firstBlockOf? row = some b) :
    ∃ after, ⟨.symbol, [' '], ['\x7b']⟩ :: us = b.tokens ++ after := by
  have hlisted : Course.Listed bodyFront us (reach grammar bodyFront 60 (.many (.rule .topLevel)) 0) row rest :=
    h.listed (by decide) 60 0 (Nat.zero_le _) rfl
  rw [reach_bodyFront] at hlisted
  obtain ⟨c, hc, hholds⟩ := hlisted
  simp only [List.mem_cons, List.not_mem_nil, or_false] at hc
  rcases hc with rfl | rfl
  · cases hholds with
    | upTo _ hnone _ =>
      rw [hnone] at hb
      cases hb
  · cases hholds with
    | blockAt after hsome htokens =>
      rw [hsome] at hb
      cases hb
      exact ⟨after, htokens⟩

/-- The brace behind the body is no part of what ends with a brace and has a text behind it. -/
theorem exists_rest_of_append {s t r : Text} (h : t ++ [' ', '\x7d'] = s ++ r) (hs : s.getLast? = some '\x7d')
    (hr : r ≠ []) : ∃ rest, t = s ++ rest := by
  rcases List.append_eq_append_iff.mp h with ⟨a, rfl, ha⟩ | ⟨c, hc, -⟩
  · match a, ha with
    | [], _ => exact ⟨[], by simp⟩
    | [c], ha =>
      obtain ⟨rfl, -⟩ := List.cons.inj ha
      simp at hs
    | c :: d :: a, ha =>
      have hnil : a ++ r = [] := (List.cons.inj (List.cons.inj ha).2).2.symm
      exact absurd (List.append_eq_nil_iff.mp hnil).2 hr
  · exact ⟨c, hc⟩

/-- In a file whose brackets match there is a token behind the block of a body that starts with a brace: the block
closes what it opens, and the class around the body is still open. -/
theorem ne_nil_of_bodyFront {us after : List Token} {b : Tree} (hbrackets : bracketsMatch [] (bodyFront ++ us) = true)
    (hblock : ReadAsBlock b) (hafter : ⟨.symbol, [' '], ['\x7b']⟩ :: us = b.tokens ++ after) : after ≠ [] := by
  rintro rfl
  have hfile := countP_of_bracketsMatch hbrackets
  have hcount := count_of_tokensNest (hblock.nests.tokensNest (List.cons_ne_nil Opened.bracket []))
  rw [List.append_nil] at hafter
  have hfront : bodyFront ++ us = bodyFront.dropLast ++ b.tokens := by
    rw [← hafter]
    rfl
  rw [hfront, List.countP_append, List.countP_append] at hfile
  have hopened : bodyFront.dropLast.countP Token.opens = 2 := by decide
  have hclosed : bodyFront.dropLast.countP Token.closes = 1 := by decide
  rw [List.length_nil] at hfile
  omega

/-- A body that starts with a brace starts with the source text of its block. -/
theorem exists_rest_of_brace {body : Text} {b : Tree} (hb : bodyBlock? body = some b)
    (hbrace : (Text.trim body).head? = some '\x7b') : ∃ rest, Text.trim body = b.text ++ rest := by
  obtain ⟨y, hy⟩ := List.head?_eq_some_iff.mp hbrace
  obtain ⟨ts, row, rest, htokens, hbrackets, hmatch, hfirst⟩ := exists_match_of_bodyBlock? hb
  have hblock := hmatch.readAsBlock rfl hfirst
  obtain ⟨us, blanks, rfl, hreads⟩ := exists_tokens_of_brace hy htokens
  obtain ⟨after, hafter⟩ := exists_tokens_of_bodyFront hmatch hfirst
  have hne := ne_nil_of_bodyFront hbrackets hblock hafter
  obtain ⟨opening, inner, closing, hb, hclosing⟩ := hblock.exists_tokens
  rw [hb, List.cons_append] at hafter
  obtain ⟨rfl, rfl⟩ := List.cons.inj hafter
  have hwhole : Text.trim body ++ [' ', '\x7d'] = b.text ++ (written after ++ blanks) := by
    rw [hy, Tree.text, hb, spelling_cons, List.cons_append, hreads.text_eq, written_append]
    simp
  refine exists_rest_of_append hwhole ?_ ?_
  · rw [Tree.text, hb, spelling_cons, written_append]
    simp [hclosing, List.getLast?_cons]
  · obtain ⟨u, after, rfl⟩ := List.exists_cons_of_ne_nil hne
    obtain ⟨c, z, hz, -⟩ := (hreads.wellCut u (by simp)).starts
    simp [hz]

end CSharpDraft.Fragment

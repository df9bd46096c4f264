import CSharpDraft.Fragment.Grammar
import CSharpDraft.Proofs.Text.Blank
import CSharpDraft.Proofs.Text.Ends
import CSharpDraft.Render.Member

/-!
# Marks around a value

An initial value may be given as it stands in an assignment, with an equals sign in front of it and a semicolon behind it,
and an expression with a semicolon behind it. One mark on each side is left out, wherever it stands and whatever blanks
there are around it.

* `formatExpression_concat`, `formatDefault_equals` : a mark at an end of the text has no effect;
* `ends_formatExpression`, `ends_formatDefault` : the texts of which nothing is left, and those that keep a semicolon;
* `assigned` : a value with marks and blanks around it;
* `formatDefault_assigned` : all the ways to write a value with such marks lead to the same text.
-/

set_option autoImplicit false

namespace CSharpDraft

namespace Fragment

open Text (isBlank isBlankChar collapse trim trimLeft trimRight dropLeading dropTrailing without)

/-! ## One mark -/

theorem formatExpression_of_getLast? {t : Text} (h : (collapse t).getLast? ≠ some ';') :
    formatExpression t = collapse t := by
  rw [formatExpression, Text.dropTrailing_of_getLast? h, Text.trimRight_collapse]

theorem formatExpression_concat (t : Text) : formatExpression (t ++ [';']) = collapse t := by
  obtain ⟨g, hg, heq⟩ := Text.exists_collapse_append t [';']
  have hmark : collapse [';'] = [';'] := rfl
  rw [formatExpression, heq, hmark, Text.dropTrailing_concat, Text.trimRight_append_blank hg, Text.trimRight_collapse]

/-- There is nothing to trim where no equals sign was left out. -/
theorem formatDefault_eq (t : Text) :
    formatDefault t = trimRight (dropTrailing ';' (trimLeft (dropLeading '=' (collapse t)))) := by
  unfold formatDefault
  split
  · next r hcons => rw [hcons, Text.dropLeading_cons]
  · next hcons =>
    have hfirst : (collapse t).head? ≠ some '=' := by
      intro hhead
      obtain ⟨r, hr⟩ := List.head?_eq_some_iff.mp hhead
      exact hcons r hr
    rw [Text.dropLeading_of_head? hfirst, Text.trimLeft_collapse]

theorem formatDefault_of_head? {t : Text} (h : (collapse t).head? ≠ some '=') : formatDefault t = formatExpression t := by
  rw [formatDefault_eq, Text.dropLeading_of_head? h, Text.trimLeft_collapse, formatExpression]

theorem formatDefault_equals (t : Text) : formatDefault ('=' :: t) = formatExpression t := by
  obtain ⟨g, hg, heq⟩ := Text.exists_collapse_append ['='] t
  have hmark : collapse ['='] = ['='] := rfl
  have htrim : trimLeft (g ++ collapse t) = collapse t := by
    rw [trimLeft, List.dropWhile_append_of_pos hg]
    exact Text.trimLeft_collapse t
  rw [formatDefault_eq, ← List.singleton_append, heq, hmark, List.append_assoc, List.singleton_append,
    Text.dropLeading_cons, htrim, formatExpression]

/-! ## Ends without blanks -/

theorem ends_formatExpression (t : Text) :
    (formatExpression t = [] ↔ without isBlankChar t = [] ∨ without isBlankChar t = [';']) ∧
      ((formatExpression t).getLast? = some ';' ↔ [';', ';'] <:+ without isBlankChar t) := by
  refine Text.ends_of_without (Text.trimRight_eq_nil_or _) ?_
  rw [formatExpression, Text.without_trimRight (fun _ h => h),
    Text.without_dropTrailing ((Text.collapse_eq_nil_or t).imp_right And.right), Text.without_collapse (fun _ h => h)]

theorem ends_formatDefault (t : Text) :
    (formatDefault t = [] ↔ without isBlankChar t ∈ [[], ['='], [';'], ['=', ';']]) ∧
      ((formatDefault t).getLast? = some ';' ↔ [';', ';'] <:+ without isBlankChar t) := by
  have hcollapse := Text.collapse_eq_nil_or t
  have hu : without isBlankChar (formatDefault t) =
      dropTrailing ';' (dropLeading '=' (without isBlankChar t)) := by
    rw [formatDefault_eq, Text.without_trimRight (fun _ h => h),
      Text.without_dropTrailing (Text.ends_trimLeft (Text.ends_dropLeading (hcollapse.imp_right And.right) '=')),
      Text.without_trimLeft (fun _ h => h), Text.without_dropLeading (hcollapse.imp_right And.left),
      Text.without_collapse (fun _ h => h)]
  have hx : formatDefault t = [] ∨ Text.EndsSolid (formatDefault t) := by
    rw [formatDefault_eq]
    exact Text.trimRight_eq_nil_or _
  obtain ⟨hnil, hlast⟩ := Text.ends_of_without hx hu
  rw [Text.suffix_dropLeading_iff (by decide)] at hlast
  rw [Text.dropLeading_eq_iff (by simp), Text.dropLeading_eq_iff (by simp)] at hnil
  refine ⟨?_, hlast⟩
  rw [hnil]
  simp only [List.mem_cons, List.not_mem_nil, or_false, or_assoc]

/-! ## Marks and blanks -/

/-- The value `v` as it stands in an assignment: with an equals sign in front of it and a semicolon behind it, unless these
are left out, and with the texts `w₁`, …, `w₄` around the marks. -/
def assigned (equals semicolon : Bool) (w₁ w₂ w₃ w₄ v : Text) : Text :=
  w₁ ++ (if equals then ['='] else []) ++ w₂ ++ v ++ w₃ ++ (if semicolon then [';'] else []) ++ w₄

theorem collapse_around {w w' : Text} (h : isBlank w = true) (h' : isBlank w' = true) (t : Text) :
    collapse (w ++ t ++ w') = collapse t := by
  rw [Text.collapse_append_blank (List.all_eq_true.mp h'), Text.collapse_blank_append (List.all_eq_true.mp h)]

/-- A semicolon at the end is no other mark at the start. -/
theorem head?_collapse_concat {t : Text} {c : Char} (hc : isBlankChar c = false) (hne : c ≠ ';')
    (h : (collapse t).head? ≠ some c) : (collapse (t ++ [';'])).head? ≠ some c := by
  obtain ⟨g, hg, heq⟩ := Text.exists_collapse_append t [';']
  have hmark : collapse [';'] = [';'] := rfl
  rw [heq, hmark]
  intro hhead
  cases ht : collapse t with
  | nil =>
    rw [ht, List.nil_append] at hhead
    rcases List.mem_append.mp (List.mem_of_head? hhead) with hmem | hmem
    · rw [hg c hmem] at hc
      cases hc
    · exact hne (List.mem_singleton.mp hmem)
  | cons d r =>
    rw [ht] at h hhead
    exact h hhead

section Assigned

variable {v w₁ w₂ w₃ w₄ : Text} (h₁ : isBlank w₁ = true) (h₂ : isBlank w₂ = true) (h₃ : isBlank w₃ = true)
  (h₄ : isBlank w₄ = true)

include h₃ h₄ in
theorem formatExpression_terminated : formatExpression (v ++ w₃ ++ [';'] ++ w₄) = collapse v := by
  have hline := Text.collapse_append_blank (List.all_eq_true.mp h₄) (v ++ w₃ ++ [';'])
  rw [formatExpression, hline, ← formatExpression, formatExpression_concat,
    Text.collapse_append_blank (List.all_eq_true.mp h₃)]

variable (hfirst : (collapse v).head? ≠ some '=') (hlast : (collapse v).getLast? ≠ some ';')

include h₂ h₃ hfirst hlast in
/-- What stands behind the equals sign, if there is one. -/
theorem value_of_assigned (semicolon : Bool) :
    formatExpression (w₂ ++ v ++ w₃ ++ if semicolon then [';'] else []) = collapse v ∧
      (collapse (w₂ ++ v ++ w₃ ++ if semicolon then [';'] else [])).head? ≠ some '=' := by
  have hvalue : collapse (w₂ ++ v ++ w₃) = collapse v := collapse_around h₂ h₃ v
  rw [← hvalue] at hfirst hlast ⊢
  cases semicolon with
  | true => exact ⟨formatExpression_concat _, head?_collapse_concat rfl (by decide) hfirst⟩
  | false =>
    rw [if_neg Bool.false_ne_true, List.append_nil]
    exact ⟨formatExpression_of_getLast? hlast, hfirst⟩

include h₁ h₂ h₃ h₄ hfirst hlast in
theorem formatDefault_of_assigned (equals semicolon : Bool) :
    formatDefault (assigned equals semicolon w₁ w₂ w₃ w₄ v) = collapse v := by
  obtain ⟨hvalue, hhead⟩ := value_of_assigned h₂ h₃ hfirst hlast semicolon
  have htext : assigned equals semicolon w₁ w₂ w₃ w₄ v =
      w₁ ++ ((if equals then ['='] else []) ++ (w₂ ++ v ++ w₃ ++ if semicolon then [';'] else [])) ++ w₄ := by
    simp only [assigned, List.append_assoc]
  rw [formatDefault_eq, htext, collapse_around h₁ h₄, ← formatDefault_eq]
  cases equals with
  | true => exact (formatDefault_equals _).trans hvalue
  | false => exact (formatDefault_of_head? hhead).trans hvalue

include h₃ h₄ in
/-- An expression with a semicolon behind it is no block. -/
theorem head?_trim_terminated (hblock : (trim v).head? ≠ some '{') :
    (trim (v ++ w₃ ++ [';'] ++ w₄)).head? ≠ some '{' := by
  have hvalue := Text.collapse_append_blank (List.all_eq_true.mp h₃) v
  rw [← Text.head?_collapse, ← hvalue] at hblock
  rw [← Text.head?_collapse, Text.collapse_append_blank (List.all_eq_true.mp h₄)]
  exact head?_collapse_concat rfl (by decide) hblock

end Assigned

end Fragment

/-! ## Properties -/

open Text (isBlank collapse trim)
open Fragment (formatExpression formatDefault assigned)

theorem PropertyDecl.lines_congr_default [Fragment.Parser] {s t : Text} (h : formatDefault s = formatDefault t)
    (p : PropertyDecl) :
    { p with defaultValue := some s }.lines = { p with defaultValue := some t }.lines := by
  have hinitializer : { p with defaultValue := some s }.initializer = { p with defaultValue := some t }.initializer := by
    simp only [initializer, h]
  rw [lines, lines, hinitializer]
  rfl

/-- An accessor whose text is no block has the line of its expression. -/
theorem Accessor.lines_custom [Fragment.Parser] {body : Text} (h : (trim body).head? ≠ some '{') (words : Text) :
    (custom body).lines words = [words ++ " => ".toList ++ formatExpression body ++ [';']] := by
  have hexpression : formatExpression (trim body) = formatExpression body := by
    rw [formatExpression, Text.collapse_trim, formatExpression]
  rw [lines, if_neg (by simpa using h), hexpression]

/-- A value may be written with an equals sign in front of it, a semicolon behind it and blanks around the marks, line
breaks among them; it becomes the same text on one line, and so does an expression with a semicolon. A property has the
same lines whichever way its value, or the expression of an accessor, is written. -/
theorem formatDefault_assigned [Fragment.Parser] {v w₁ w₂ w₃ w₄ : Text} (h₁ : isBlank w₁ = true)
    (h₂ : isBlank w₂ = true)
    (h₃ : isBlank w₃ = true) (h₄ : isBlank w₄ = true) (hfirst : (collapse v).head? ≠ some '=')
    (hlast : (collapse v).getLast? ≠ some ';') :
    formatDefault v = collapse v ∧
      (∀ equals semicolon, formatDefault (assigned equals semicolon w₁ w₂ w₃ w₄ v) = collapse v) ∧
      formatExpression v = collapse v ∧
      formatExpression (v ++ w₃ ++ [';'] ++ w₄) = collapse v ∧
      ∀ p : PropertyDecl,
        (∀ equals semicolon, { p with defaultValue := some (assigned equals semicolon w₁ w₂ w₃ w₄ v) }.lines =
          { p with defaultValue := some v }.lines) ∧
        ((trim v).head? ≠ some '{' →
          { p with getter := some (.custom (v ++ w₃ ++ [';'] ++ w₄)) }.lines =
            { p with getter := some (.custom v) }.lines ∧
          { p with setter := some (.custom (v ++ w₃ ++ [';'] ++ w₄)) }.lines =
            { p with setter := some (.custom v) }.lines) := by
  have hexpression : formatExpression v = collapse v := Fragment.formatExpression_of_getLast? hlast
  have hvalue : formatDefault v = collapse v := (Fragment.formatDefault_of_head? hfirst).trans hexpression
  have hassigned := Fragment.formatDefault_of_assigned h₁ h₂ h₃ h₄ hfirst hlast
  have hterminated : formatExpression (v ++ w₃ ++ [';'] ++ w₄) = collapse v := Fragment.formatExpression_terminated h₃ h₄
  refine ⟨hvalue, hassigned, hexpression, hterminated, fun p => ⟨fun equals semicolon => ?_, fun hblock => ?_⟩⟩
  · exact PropertyDecl.lines_congr_default ((hassigned equals semicolon).trans hvalue.symm) p
  · have hlines (words : Text) :
        (Accessor.custom (v ++ w₃ ++ [';'] ++ w₄)).lines words = (Accessor.custom v).lines words := by
      rw [Accessor.lines_custom (Fragment.head?_trim_terminated h₃ h₄ hblock), Accessor.lines_custom hblock,
        hterminated, hexpression]
    constructor
    · simp only [PropertyDecl.lines, accessorLines, hlines]
      rfl
    · simp only [PropertyDecl.lines, accessorLines, hlines]
      rfl

/-- A list that is written over two lines, with white space of several sorts. -/
def scoresValue : Text := "new[]\r\n\u3000\x7b 1,\u2003 2 \x7d".toList

def scores : PropertyDecl where
  name := "Scores".toList
  typeName := "int[]".toList
  defaultValue := some scoresValue

theorem formatDefault_assigned_scores :
    (∀ equals semicolon,
      formatDefault (assigned equals semicolon ['\n'] "\u2028\t".toList "\x0b ".toList ['\u00a0'] scoresValue) =
        "new[] \x7b 1,\u2003 2 \x7d".toList) ∧
      { scores with
        defaultValue := some "\n=\u2028\tnew[]\r\n\u3000\x7b 1,\u2003 2 \x7d\x0b ;\u00a0".toList }.lines = scores.lines := by
  have hline : collapse scoresValue = "new[] \x7b 1,\u2003 2 \x7d".toList := by decide
  have h := @formatDefault_assigned _ scoresValue ['\n'] "\u2028\t".toList "\x0b ".toList ['\u00a0'] (by decide)
    (by decide) (by decide) (by decide) (by rw [hline]; decide) (by rw [hline]; decide)
  rw [hline] at h
  exact ⟨h.2.1, (h.2.2.2.2 scores).1 true true⟩

end CSharpDraft

import Mathlib.Data.List.Basic
import Spirv.Proofs.WordDump

/-!
# Blanks in word dumps

What blanks mean beside the commas of a dump and at its ends.

- `comma_cases`: in which of two texts a comma is, which is what the cases below are split by.
- `Separator.spread`, `Following.spread`, `Separated.spread`, `IsDump.spread`: blanks on either side
  of a comma, for each part of a dump.
- `EndsInDigit`, `IsDump.endsInDigit`: a comma that no word follows stands directly behind the last
  word, so that blanks in front of it are an exception (`IsDump.not_isDump_of_blanks`).
- `blanks_insignificant`: everywhere else they mean nothing.
-/

namespace Spirv.WordDump

/-! ## Commas -/

/-- A comma in two texts, one behind the other, is in one of them. -/
theorem comma_cases {a b front back : List Char} (h : a ++ b = front ++ ',' :: back) :
    (∃ back', a = front ++ ',' :: back' ∧ back = back' ++ b) ∨
      ∃ front', front = a ++ front' ∧ b = front' ++ ',' :: back := by
  rcases List.append_eq_append_iff.mp h with ⟨front', hfront, hb⟩ | ⟨more, ha, hmore⟩
  · exact .inr ⟨front', hfront, hb⟩
  · cases more with
    | nil =>
      rw [List.append_nil] at ha
      exact .inr ⟨[], by rw [ha, List.append_nil], hmore.symm⟩
    | cons c more =>
      obtain ⟨rfl, rfl⟩ := List.cons.inj hmore
      exact .inl ⟨more, ha, rfl⟩

/-- A comma that is the only one behind its front stands at the start. -/
theorem eq_nil_of_comma {after front back : List Char} (hafter : ',' ∉ after)
    (h : ',' :: after = front ++ ',' :: back) : front = [] ∧ after = back := by
  cases front with
  | nil => exact ⟨rfl, (List.cons.inj h).2⟩
  | cons c front =>
    obtain ⟨-, rfl⟩ := List.cons.inj h
    exact absurd (by simp) hafter

theorem Blanks.not_mem_comma {text : List Char} (h : Blanks text) : ',' ∉ text :=
  fun hmem => absurd (h ',' hmem) (by decide)

theorem Blanks.append {text more : List Char} (h : Blanks text) (hmore : Blanks more) :
    Blanks (text ++ more) :=
  List.forall_mem_append.mpr ⟨h, hmore⟩

theorem blanks_nil : Blanks [] := by decide

theorem WordText.not_mem_comma {text : List Char} {w : Word} (h : WordText text w) :
    ',' ∉ text := by
  have hnumeral : ∀ {digits : List Char} {n : Nat}, Numeral digits n → ',' ∉ digits := by
    intro digits n hdigits hmem
    have hdigit := (numeral_iff.mp hdigits).2.1 ',' hmem
    contradiction
  cases h with
  | bare hdigits => exact hnumeral hdigits
  | marked hx hdigits =>
    rw [List.mem_cons, List.mem_cons, not_or, not_or]
    exact ⟨by decide, by rcases hx with rfl | rfl <;> decide, hnumeral hdigits⟩

/-! ## Blanks beside a comma -/

section

variable {left right : List Char} (hleft : Blanks left) (hright : Blanks right)
include hleft hright

theorem Separator.spread {front back : List Char} (h : Separator (front ++ ',' :: back)) :
    Separator (front ++ (left ++ ',' :: (right ++ back))) := by
  generalize htext : front ++ ',' :: back = text at h
  cases h with
  | @comma before after hbefore hafter =>
    rcases comma_cases htext.symm with ⟨back', rfl, -⟩ | ⟨front', rfl, hcomma⟩
    · exact absurd (by simp) hbefore.not_mem_comma
    · obtain ⟨rfl, rfl⟩ := eq_nil_of_comma hafter.not_mem_comma hcomma
      have hspread := Separator.comma (hbefore.append hleft) (hright.append hafter)
      rwa [List.append_assoc, ← List.append_nil before] at hspread
  | blanks hne hblanks =>
    subst htext
    exact absurd (by simp) hblanks.not_mem_comma

theorem Following.spread {text front back : List Char} {ws : List Word} (h : Following text ws)
    (htext : text = front ++ ',' :: back) :
    Following (front ++ (left ++ ',' :: (right ++ back))) ws := by
  induction h generalizing front with
  | nil => simp at htext
  | cons hseparator hw hrest ih =>
    rcases comma_cases htext with ⟨back', rfl, rfl⟩ | ⟨front', rfl, hbehind⟩
    · have hspread := Following.cons (hseparator.spread hleft hright) hw hrest
      simpa only [List.append_assoc, List.cons_append] using hspread
    · rcases comma_cases hbehind with ⟨back', rfl, -⟩ | ⟨front', rfl, hothers⟩
      · exact absurd (by simp) hw.not_mem_comma
      · have hspread := Following.cons hseparator hw (ih hothers)
        simpa only [List.append_assoc] using hspread

theorem Separated.spread {front back : List Char} {ws : List Word}
    (h : Separated (front ++ ',' :: back) ws) :
    Separated (front ++ (left ++ ',' :: (right ++ back))) ws := by
  generalize htext : front ++ ',' :: back = text at h
  cases h with
  | nil => simp at htext
  | cons hw hrest =>
    rcases comma_cases htext.symm with ⟨back', rfl, -⟩ | ⟨front', rfl, hothers⟩
    · exact absurd (by simp) hw.not_mem_comma
    · have hspread := Separated.cons hw (hrest.spread hleft hright hothers)
      rwa [← List.append_assoc] at hspread

/-- **Blanks beside a comma** mean nothing, unless they stand in front of one that is the end of the
dump. -/
theorem IsDump.spread {front back : List Char} {ws : List Word}
    (h : IsDump (front ++ ',' :: back) ws) (hlast : left = [] ∨ ws = [] ∨ ¬ Blanks back) :
    IsDump (front ++ (left ++ ',' :: (right ++ back))) ws := by
  generalize htext : front ++ ',' :: back = text at h
  cases h with
  | @intro before body ending _ hbefore hbody hending =>
    rcases comma_cases htext.symm with ⟨back', rfl, -⟩ | ⟨front', rfl, hbehind⟩
    · exact absurd (by simp) hbefore.not_mem_comma
    · rcases comma_cases hbehind with ⟨back', rfl, rfl⟩ | ⟨front', rfl, rfl⟩
      · have hspread := IsDump.intro hbefore (hbody.spread hleft hright) hending
        simpa only [List.append_assoc, List.cons_append] using hspread
      · -- the comma is the last one, directly behind the words
        obtain ⟨rfl, hback⟩ : front' = [] ∧ Blanks back := by
          generalize hcomma : front' ++ ',' :: back = ending at hending
          cases hending with
          | blanks h =>
            subst hcomma
            exact absurd (by simp) h.not_mem_comma
          | comma h =>
            obtain ⟨hnil, rfl⟩ := eq_nil_of_comma h.not_mem_comma hcomma.symm
            exact ⟨hnil, h⟩
        have hending' := Ending.comma (hright.append hback)
        rcases hlast with rfl | rfl | hnot
        · have hspread := IsDump.intro hbefore hbody hending'
          simpa only [List.append_assoc, List.append_nil, List.nil_append] using hspread
        · cases hbody
          have hspread := IsDump.intro (hbefore.append hleft) .nil hending'
          simpa only [List.append_assoc, List.append_nil, List.nil_append] using hspread
        · contradiction

end

/-! ## Blanks at the ends -/

theorem IsDump.blanks_append {text run : List Char} {ws : List Word} (h : IsDump text ws)
    (hrun : Blanks run) : IsDump (run ++ text) ws := by
  cases h with
  | intro hbefore hbody hending =>
    rw [← List.append_assoc]
    exact .intro (hrun.append hbefore) hbody hending

theorem IsDump.append_blanks {text run : List Char} {ws : List Word} (h : IsDump text ws)
    (hrun : Blanks run) : IsDump (text ++ run) ws := by
  cases h with
  | @intro before body ending _ hbefore hbody hending =>
    have hending' : Ending (ending ++ run) := by
      cases hending with
      | blanks h => exact .blanks (h.append hrun)
      | comma h => exact .comma (h.append hrun)
    rw [List.append_assoc, List.append_assoc]
    exact .intro hbefore hbody hending'

/-! ## The last comma -/

/-- The last character of a text is a digit. -/
def EndsInDigit (text : List Char) : Prop := ∃ c ∈ text.getLast?, isHexDigit c = true

theorem EndsInDigit.append {text : List Char} (h : EndsInDigit text) (front : List Char) :
    EndsInDigit (front ++ text) := by
  obtain ⟨c, hc, hdigit⟩ := h
  exact ⟨c, List.mem_getLast?_append_of_mem_getLast? hc, hdigit⟩

/-- The last character of a text is not a digit if blanks or commas stand there. -/
theorem not_endsInDigit {front run : List Char} (hne : run ≠ [])
    (hrun : ∀ c ∈ run, isBlank c = true ∨ c = ',') : ¬ EndsInDigit (front ++ run) := by
  rintro ⟨c, hc, hdigit⟩
  rw [List.getLast?_append_of_ne_nil front hne] at hc
  rw [(isHexDigit_of_ends (hrun c (List.mem_of_getLast? hc))).1] at hdigit
  contradiction

theorem WordText.endsInDigit {text : List Char} {w : Word} (h : WordText text w) :
    EndsInDigit text := by
  have hnumeral : ∀ {digits : List Char} {n : Nat}, Numeral digits n → EndsInDigit digits := by
    intro digits n hdigits
    obtain ⟨hne, hall, -⟩ := numeral_iff.mp hdigits
    exact ⟨_, List.getLast?_eq_some_getLast hne, hall _ (List.getLast_mem hne)⟩
  cases h with
  | bare hdigits => exact hnumeral hdigits
  | @marked x digits _ _ hdigits => exact (hnumeral hdigits).append ['0', x]

theorem Following.endsInDigit {own : List Char} {ws : List Word} (h : Following own ws)
    {front : List Char} (hfront : EndsInDigit front) : EndsInDigit (front ++ own) := by
  induction h generalizing front with
  | nil => rwa [List.append_nil]
  | @cons separator text _ _ _ _ hw _ ih =>
    have hword := ih ((hw.endsInDigit.append separator).append front)
    simpa only [List.append_assoc] using hword

theorem Separated.endsInDigit {body : List Char} {ws : List Word} (h : Separated body ws)
    (hws : ws ≠ []) : EndsInDigit body := by
  cases h with
  | nil => contradiction
  | cons hw hrest => exact hrest.endsInDigit hw.endsInDigit

/-- A comma that no word follows stands directly behind the last word. -/
theorem IsDump.endsInDigit {front back : List Char} {ws : List Word}
    (h : IsDump (front ++ ',' :: back) ws) (hws : ws ≠ []) (hback : Blanks back) :
    EndsInDigit front := by
  generalize htext : front ++ ',' :: back = text at h
  cases h with
  | @intro before body ending _ hbefore hbody hending =>
    have hlast := hbody.endsInDigit hws
    rcases comma_cases htext.symm with ⟨back', rfl, -⟩ | ⟨front', rfl, hbehind⟩
    · exact absurd (by simp) hbefore.not_mem_comma
    · rcases comma_cases hbehind with ⟨back', rfl, rfl⟩ | ⟨front', rfl, rfl⟩
      · -- a comma between two words has more than blanks behind it
        refine absurd hlast (not_endsInDigit (List.cons_ne_nil _ _) fun c hc => ?_)
        rcases List.mem_cons.mp hc with rfl | hc
        · exact .inr rfl
        · exact .inl (blanks_iff.mp hback c (List.mem_append_left _ hc))
      · generalize hcomma : front' ++ ',' :: back = ending at hending
        cases hending with
        | blanks h =>
          subst hcomma
          exact absurd (by simp) h.not_mem_comma
        | comma h =>
          obtain ⟨rfl, -⟩ := eq_nil_of_comma h.not_mem_comma hcomma.symm
          rw [List.append_nil]
          exact hlast.append before

/-- There are no digits in a dump of no words. -/
theorem IsDump.isHexDigit_eq_false {text : List Char} (h : IsDump text []) :
    ∀ c ∈ text, isHexDigit c = false := by
  have hblank : ∀ {text : List Char}, Blanks text → ∀ c ∈ text, isHexDigit c = false :=
    fun h c hc => (isHexDigit_of_ends (.inl (blanks_iff.mp h c hc))).1
  cases h with
  | intro hbefore hbody hending =>
    cases hbody
    rw [List.nil_append, List.forall_mem_append]
    refine ⟨hblank hbefore, ?_⟩
    cases hending with
    | blanks h => exact hblank h
    | comma h => exact List.forall_mem_cons.mpr ⟨by decide, hblank h⟩

/-- **Blanks in front of a last comma** spoil a dump. -/
theorem IsDump.not_isDump_of_blanks {front run back : List Char} {ws : List Word}
    (h : IsDump (front ++ ',' :: back) ws) (hws : ws ≠ []) (hback : Blanks back)
    (hrun : Blanks run) (hne : run ≠ []) : ¬ ∃ ws', IsDump (front ++ (run ++ ',' :: back)) ws' := by
  rintro ⟨ws', h'⟩
  by_cases hws' : ws' = []
  · subst hws'
    obtain ⟨c, hc, hdigit⟩ := h.endsInDigit hws hback
    have hmem : c ∈ front ++ (run ++ ',' :: back) :=
      List.mem_append_left _ (List.mem_of_getLast? hc)
    rw [h'.isHexDigit_eq_false c hmem] at hdigit
    contradiction
  · rw [← List.append_assoc] at h'
    exact not_endsInDigit hne (fun c hc => .inl (blanks_iff.mp hrun c hc))
      (h'.endsInDigit hws' hback)

/-! ## Whole texts -/

/-- **Blanks beside the commas of a dump and at its ends** mean nothing: a text with more of them
there is a dump of the same words. The exception is a comma behind the last word, which has to stand
directly behind it: blanks in front of this comma are refused. -/
theorem blanks_insignificant {before run after : String} {ws : List Word}
    (h : parse (before ++ after) = .ok ws) (hrun : Blanks run.toList)
    (hplace : before = "" ∨ after = "" ∨ before.toList.getLast? = some ',' ∨
      after.toList.head? = some ',') :
    let refused := run ≠ "" ∧ ws ≠ [] ∧ ∃ rest, after.toList = ',' :: rest ∧ Blanks rest
    (¬ refused → parse (before ++ run ++ after) = .ok ws) ∧
    (refused → ∃ e, parse (before ++ run ++ after) = .error e) := by
  intro refused
  rw [parse_eq_ok_iff, String.toList_append] at h
  have htext : (before ++ run ++ after).toList =
      before.toList ++ (run.toList ++ after.toList) := by simp
  constructor
  · intro hnot
    rw [parse_eq_ok_iff, htext]
    rcases hplace with rfl | rfl | hbefore | hafter
    · exact h.blanks_append hrun
    · simpa using h.append_blanks hrun
    · obtain ⟨front, hfront⟩ := List.getLast?_eq_some_iff.mp hbefore
      rw [hfront, List.append_assoc, List.singleton_append] at h ⊢
      exact h.spread blanks_nil hrun (.inl rfl)
    · obtain ⟨rest, hrest⟩ := List.head?_eq_some_iff.mp hafter
      rw [hrest] at h ⊢
      refine h.spread hrun blanks_nil ?_
      by_contra hlast
      rw [not_or, not_or, not_not] at hlast
      exact hnot ⟨fun hnil => hlast.1 (by rw [hnil]; rfl), hlast.2.1, rest, hrest, hlast.2.2⟩
  · rintro ⟨hne, hws, rest, hrest, hblanks⟩
    rw [hrest] at h
    refine ⟨_, parse_eq_error_iff.mpr ⟨?_, rfl⟩⟩
    rw [htext, hrest]
    exact h.not_isDump_of_blanks hws hblanks hrun (by simpa using hne)

/-- A space and a newline in front of the first comma and of the last one. -/
theorem blanks_insignificant_commas :
    parse ("1" ++ ",2,") = .ok [1, 2] ∧ Blanks " \n".toList ∧
      parse ("1" ++ " \n" ++ ",2,") = .ok [1, 2] ∧
      ∃ e, parse ("1,2" ++ " \n" ++ ",") = .error e := by
  have hfirst : parse ("1" ++ ",2,") = .ok [1, 2] := by cbv
  have hlast : parse ("1,2" ++ ",") = .ok [1, 2] := by cbv
  have hrun : Blanks " \n".toList := by decide
  obtain ⟨haccepted, -⟩ := blanks_insignificant hfirst hrun (.inr (.inr (.inr rfl)))
  obtain ⟨-, hrefused⟩ := blanks_insignificant hlast hrun (.inr (.inr (.inr rfl)))
  refine ⟨hfirst, hrun, haccepted ?_, hrefused ⟨by decide, by decide, [], rfl, blanks_nil⟩⟩
  rintro ⟨-, -, rest, hrest, hblanks⟩
  obtain rfl : ['2', ','] = rest := (List.cons.inj hrest).2
  exact absurd (hblanks '2' List.mem_cons_self) (by decide)

/-- A space between the last word and the comma behind it. -/
theorem blanks_insignificant_last_comma :
    parse "1," = .ok [1] ∧ parse "1 ," = .error (.invalidDump "") := by
  constructor
  · cbv
  · cbv

end Spirv.WordDump

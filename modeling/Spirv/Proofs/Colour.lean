import Spirv.Proofs.Listing

/-!
# Colour is decoration

What a palette changes of a listing, and that deleting the escape sequences of a terminal undoes it.

- `eraseEscapes`: deletes each part of a text that runs from an escape character through the next
  `m`.
- `Erases`: a decorated text and what is left of it. The pieces of a text can be looked at one by
  one (`Erases.append`, `Erases.join`).
- `Palette.Erasable`: a palette with nothing but escape sequences as markers, like `Palette.ansi`.
  `erases_text` goes up from its markers to a whole listing.
- `colour_is_decoration`: the listing of a module fails alike under all palettes, and without the
  colours of a terminal it is the plain one.
-/

namespace Spirv

open Cursor

/-! ## Escape sequences -/

/-- The character that starts an escape sequence. -/
def escape : Char := '\x1b'

/-- The characters that are left without escape sequences, from a place inside of one or not. Only
an escape character with an `m` behind it starts a sequence. -/
def eraseFrom : (inside : Bool) → List Char → List Char
  | _, [] => []
  | true, c :: cs => if c = 'm' then eraseFrom false cs else eraseFrom true cs
  | false, c :: cs =>
    if c = escape ∧ 'm' ∈ cs then eraseFrom true cs else c :: eraseFrom false cs

/-- A text without its escape sequences: each part that runs from an escape character through the
next `m` is deleted. -/
def eraseEscapes (text : String) : String := String.ofList (eraseFrom false text.toList)

/-- Without an escape character nothing is deleted. -/
theorem eraseFrom_append {cs : List Char} (h : escape ∉ cs) (rest : List Char) :
    eraseFrom false (cs ++ rest) = cs ++ eraseFrom false rest := by
  induction cs with
  | nil => rfl
  | cons c cs ih =>
    rw [List.mem_cons, not_or] at h
    have hc : ¬ (c = escape ∧ 'm' ∈ cs ++ rest) := fun hstart => h.1 hstart.1.symm
    rw [List.cons_append, eraseFrom, if_neg hc, ih h.2, List.cons_append]

/-- A sequence is deleted up to its end. -/
theorem eraseFrom_inside {code : List Char} (h : 'm' ∉ code) (rest : List Char) :
    eraseFrom true (code ++ 'm' :: rest) = eraseFrom false rest := by
  induction code with
  | nil => rw [List.nil_append, eraseFrom, if_pos rfl]
  | cons c code ih =>
    rw [List.mem_cons, not_or] at h
    rw [List.cons_append, eraseFrom, if_neg (Ne.symm h.1), ih h.2]

theorem eraseFrom_escape {code : List Char} (h : 'm' ∉ code) (rest : List Char) :
    eraseFrom false (escape :: (code ++ 'm' :: rest)) = eraseFrom false rest := by
  have hstart : 'm' ∈ code ++ 'm' :: rest := List.mem_append_right _ List.mem_cons_self
  rw [eraseFrom, if_pos ⟨rfl, hstart⟩, eraseFrom_inside h]

/-! ## Decorated texts -/

/-- `Erases decorated text`: without its escape sequences the first text is the second one, whatever
stands behind it, if the second one has no escape character of its own. -/
def Erases (decorated text : String) : Prop :=
  escape ∉ text.toList →
    ∀ rest, eraseFrom false (decorated.toList ++ rest) = text.toList ++ eraseFrom false rest

namespace Erases

theorem refl (text : String) : Erases text text := fun h => eraseFrom_append h

theorem append {d d' t t' : String} (h : Erases d t) (h' : Erases d' t') :
    Erases (d ++ d') (t ++ t') := by
  intro hescape rest
  rw [String.toList_append, List.mem_append, not_or] at hescape
  rw [String.toList_append, String.toList_append, List.append_assoc, h hescape.1,
    h' hescape.2, List.append_assoc]

theorem join {α : Type} (decorated text : α → String) {as : List α}
    (h : ∀ a ∈ as, Erases (decorated a) (text a)) :
    Erases (String.join (as.map decorated)) (String.join (as.map text)) := by
  induction as with
  | nil => exact refl ""
  | cons a as ih =>
    rw [List.forall_mem_cons] at h
    rw [List.map_cons, List.map_cons, String.join_cons, String.join_cons]
    exact h.1.append (ih h.2)

/-- An escape sequence leaves nothing. -/
theorem sequence {marker : String} (code : List Char) (h : 'm' ∉ code)
    (hmarker : marker.toList = escape :: (code ++ ['m'])) : Erases marker "" := by
  intro _ rest
  have hrest : marker.toList ++ rest = escape :: (code ++ 'm' :: rest) := by
    rw [hmarker, List.cons_append, List.append_assoc, List.singleton_append]
  rw [hrest, eraseFrom_escape h]
  rfl

theorem eraseEscapes_eq {decorated text : String} (h : Erases decorated text)
    (hescape : escape ∉ text.toList) : eraseEscapes decorated = text := by
  have hall := h hescape []
  rw [List.append_nil] at hall
  rw [eraseEscapes, hall, eraseFrom, List.append_nil, String.ofList_toList]

end Erases

/-! ## Palettes -/

/-- The markers of the palette are escape sequences. -/
def Palette.Erasable (p : Palette) : Prop :=
  ∀ h, Erases (p.markers h).before "" ∧ Erases (p.markers h).after ""

theorem Palette.ansi_erasable : ansi.Erasable := by
  intro h
  have hreset : Erases "\x1b[0m" "" := .sequence ['[', '0'] (by decide) rfl
  refine ⟨?_, hreset⟩
  cases h with
  | comment => exact .sequence ['[', '1', ';', '3', '0'] (by decide) rfl
  | id => exact .sequence ['[', '3', '3'] (by decide) rfl
  | resultId => exact .sequence ['[', '3', '4'] (by decide) rfl
  | literal => exact .sequence ['[', '3', '1'] (by decide) rfl
  | string => exact .sequence ['[', '3', '2'] (by decide) rfl

section Erasable

variable {g : Grammar} {p : Palette} (hp : p.Erasable)

include hp

theorem erases_decorate (h : Highlight) (text : String) :
    Erases (p.decorate h text) (Palette.plain.decorate h text) :=
  ((hp h).1.append (.refl text)).append (hp h).2

theorem erases_fragment (f : Fragment) : Erases (f.render p) (f.render .plain) := by
  unfold Fragment.render
  split
  · exact .refl _
  · exact ((Erases.refl _).append (erases_decorate hp _ _)).append (.refl _)
  · exact erases_decorate hp _ _

theorem erases_render (i : Instruction) : Erases (i.render p) (i.render .plain) := by
  have harguments : Erases
      (String.join (i.arguments.map fun o => " " ++ o.fragment.render p))
      (String.join (i.arguments.map fun o => " " ++ o.fragment.render .plain)) :=
    .join _ _ fun o _ => (Erases.refl " ").append (erases_fragment hp o.fragment)
  have hmnemonic := Erases.refl i.opcode.mnemonic
  unfold Instruction.render
  cases i.result with
  | none => exact ((Erases.refl "").append hmnemonic).append harguments
  | some o =>
    have hresult := (erases_fragment hp o.fragment).append (.refl " = ")
    exact (hresult.append hmnemonic).append harguments

/-- **A listing** without the colours is the plain one. -/
theorem erases_text (h : Header) (is : List Instruction) :
    Erases (Listing.text g p h is) (Listing.text g .plain h is) :=
  (erases_decorate hp _ _).append
    (.join _ _ fun i _ => (erases_render hp i).append (.refl "\n"))

end Erasable

/-! ## Listings -/

/-- **Colour is decoration.** The listings of some words under two palettes fail alike, and if the
words have a header, the listing under any palette is that of the same instructions up to the same
failure. A plain listing without an escape character is what is left of the listing in the colours
of a terminal when its escape sequences are deleted. -/
theorem colour_is_decoration (g : Grammar) (words : List Word) :
    (∀ p q : Palette,
      (∀ e, (disassemble g p words).outcome = .error e ↔
        (disassemble g q words).outcome = .error e) ∧
      (write g p words {}).failure = (write g q words {}).failure) ∧
    (∀ m, (Module.ofWords words).outcome = .ok m →
      ∃ (is : List Instruction) (failure : Option Diagnostic),
        (first m).items g = is.map .ok ++ failure.toList.map .error ∧
        ∀ p, (disassemble g p words).outcome =
          failure.elim (.ok (Listing.text g p m.header is)) fun d => .error (.invalidBinary d)) ∧
    ∀ plain, (disassemble g .plain words).outcome = .ok plain → '\x1b' ∉ plain.toList →
      ∃ coloured, (disassemble g .ansi words).outcome = .ok coloured ∧
        eraseEscapes coloured = plain := by
  rcases hm : (Module.ofWords words).outcome with d | m
  · refine ⟨fun p q => ⟨fun e => ?_, ?_⟩, fun m hm' => by contradiction, fun plain hplain => ?_⟩
    · rw [disassemble_outcome_of_error hm, disassemble_outcome_of_error hm]
    · unfold write
      rw [run_outcome_error _ _ hm, run_outcome_error _ _ hm]
    · rw [disassemble_outcome_of_error hm] at hplain
      contradiction
  · obtain ⟨is, failure, hitems⟩ := exists_items_eq (g := g) (first m)
    have houtcome : ∀ p, (disassemble g p words).outcome =
        failure.elim (.ok (Listing.text g p m.header is)) fun d => .error (.invalidBinary d) :=
      fun p => disassemble_outcome hm hitems
    refine ⟨fun p q => ⟨fun e => ?_, ?_⟩, ?_, fun plain hplain hescape => ?_⟩
    · rw [houtcome p, houtcome q]
      cases failure with
      | none => exact iff_of_false (fun h => by contradiction) (fun h => by contradiction)
      | some d => rw [Option.elim_some, Option.elim_some]
    · rw [(write_unbounded hm hitems .empty).2, (write_unbounded hm hitems .empty).2]
    · rintro m' hm'
      cases hm'
      exact ⟨is, failure, hitems, houtcome⟩
    · rw [houtcome] at hplain
      cases failure with
      | some d => contradiction
      | none =>
        cases hplain
        exact ⟨_, houtcome .ansi, (erases_text Palette.ansi_erasable _ _).eraseEscapes_eq hescape⟩

/-- A name that holds an `m`: the plain listing has no escape character, and it is what is left of
the coloured one. -/
theorem colour_is_decoration_name :
    let words := [magicNumber, 0x00010000, 0, 5, 0, 0x00030005, 1, 0x00006D61]
    let plain := "; SPIR-V\n; Version: 65536\n; Generator: Khronos\n; Bound: 5\n; Schema: 0\n" ++
      "OpName %1 \"am\"\n"
    (disassemble .core .plain words).outcome = .ok plain ∧ '\x1b' ∉ plain.toList ∧
      ∃ coloured, (disassemble .core .ansi words).outcome = .ok coloured ∧
        eraseEscapes coloured = plain := by
  intro words plain
  have hplain : (disassemble .core .plain words).outcome = .ok plain := by decide +kernel
  have hescape : '\x1b' ∉ plain.toList := by decide +kernel
  exact ⟨hplain, hescape, (colour_is_decoration .core words).2.2 plain hplain hescape⟩

end Spirv

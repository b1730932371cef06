import Spirv.Proofs.Listing

/-!
# Listings in a limited sink

What reaches an outlet that may refuse a piece of a listing.

- `Listing.pour`: pieces of text that are handed to an outlet one after another, until one is
  refused.
- `Listing.run_eq_pour`: a listing in any outlet is its pieces poured into it, and what is reported
  goes as far as the pieces do. Reading between two pieces makes no difference.
- `Listing.pour_limited`: pieces that are poured into a limited sink leave the bytes that fit.
- `write_limited`: so a limited sink receives the start of what a sink without a limit receives, and
  a lack of room takes the place of any later failure.
-/

namespace Spirv

open Cursor

variable {g : Grammar} {p : Palette}

namespace Listing

variable {σ : Type} {emit : σ → String → σ × Option Error}

/-! ## Any outlet -/

/-- What handing pieces of text to an outlet comes to. -/
structure Poured (σ : Type) where
  /-- The state of the outlet. -/
  out : σ
  /-- How many pieces it took. -/
  taken : Nat
  /-- Why it refused the next one. -/
  refusal : Option Error

/-- Hands pieces of text to an outlet one after another, until one is refused. -/
def pour (emit : σ → String → σ × Option Error) (out : σ) : List String → Poured σ
  | [] => ⟨out, 0, none⟩
  | piece :: pieces =>
    match emit out piece with
    | (out, some e) => ⟨out, 0, some e⟩
    | (out, none) =>
      let rest := pour emit out pieces
      { rest with taken := rest.taken + 1 }

theorem pour_of_taken {out out' : σ} {piece : String} (h : emit out piece = (out', none))
    (pieces : List String) :
    pour emit out (piece :: pieces) =
      { pour emit out' pieces with taken := (pour emit out' pieces).taken + 1 } := by
  rw [pour, h]

theorem pour_of_refused {out out' : σ} {piece : String} {e : Error}
    (h : emit out piece = (out', some e)) (pieces : List String) :
    pour emit out (piece :: pieces) = ⟨out', 0, some e⟩ := by
  rw [pour, h]

/-- **The lines from a cursor on** are poured into the outlet. An instruction is reported before its
line is handed out, so the one whose line is refused is reported too. -/
theorem lines_eq_pour {c c' : Cursor} {is : List Instruction} {failure : Option Diagnostic}
    (h : Reads g c is c') (hstops : Stops g c' failure) (out : σ) (log : Log) :
    lines g p emit out log c =
      let r := pour emit out (is.map (·.line p))
      { out := r.out
        log := log ++ (((c.items g).take (r.taken + 1)).map Item.record).toArray
        failure := r.refusal.or (failure.map .invalidBinary) } := by
  induction h generalizing out log with
  | refl c =>
    have hnext : c.next g = _ := hstops
    rw [lines_eq, hnext, hstops.items_eq]
    cases failure with
    | none => simp [pour]
    | some d => simp [pour]
  | @cons c c' c'' i is hnext _ ih =>
    rw [lines_eq, hnext, items_of_next hnext, List.map_cons]
    rcases hemit : emit out (i.line p) with ⟨out', _ | e⟩
    · rw [pour_of_taken hemit]
      simp [hemit, ih hstops]
    · rw [pour_of_refused hemit]
      simp [hemit]

/-- **A listing in any outlet** is its header block and its lines, poured into the outlet. If none
of them is refused, it fails as reading does. -/
theorem run_eq_pour {words : List Word} {m : Module}
    (hm : (Module.ofWords words).outcome = .ok m) {is : List Instruction}
    {failure : Option Diagnostic}
    (h : (first m).items g = is.map .ok ++ failure.toList.map .error) (out : σ) :
    run g p emit out words =
      let r := pour emit out (m.header.comment g p :: is.map (·.line p))
      { out := r.out
        log := (Module.ofWords words).log ++
          ((((first m).items g).take r.taken).map Item.record).toArray
        failure := r.refusal.or (failure.map .invalidBinary) } := by
  obtain ⟨c, hreads, hitems⟩ := items_eq_append_iff.mp h
  have hstops : Stops g c failure := stops_iff.mpr hitems
  unfold run
  dsimp only
  rw [hm]
  dsimp only
  rcases hemit : emit out (m.header.comment g p) with ⟨out', _ | e⟩
  · rw [pour_of_taken hemit]
    exact lines_eq_pour hreads hstops out' _
  · rw [pour_of_refused hemit]
    simp

/-! ## Limited sinks -/

/-- Where bytes do not fit, it does not matter what comes behind them. -/
theorem extract_append_of_lt {bytes : ByteArray} {n : Nat} (h : n < bytes.size)
    (more : ByteArray) : (bytes ++ more).extract 0 n = bytes.extract 0 n := by
  have hnone : n - bytes.size = 0 := by omega
  rw [ByteArray.extract_append, hnone, Nat.zero_sub, ByteArray.extract_same, ByteArray.append_empty]

theorem extract_of_size_le {bytes : ByteArray} {n : Nat} (h : bytes.size ≤ n) :
    bytes.extract 0 n = bytes := by
  rw [← Nat.max_eq_left h]
  exact ByteArray.extract_zero_max_size

/-- **Pieces that are poured into a limited sink** leave the bytes that fit. One of them is refused
exactly if they do not all fit. -/
theorem pour_limited {n : Nat} {bytes : ByteArray} (hbytes : bytes.size ≤ n)
    (pieces : List String) :
    let whole := bytes ++ (String.join pieces).toUTF8
    (pour Sink.write { capacity := some n, bytes } pieces).out =
        { capacity := some n, bytes := whole.extract 0 n } ∧
      (pour Sink.write { capacity := some n, bytes } pieces).refusal =
        if whole.size ≤ n then none else some (.transfer .noRoom) := by
  induction pieces generalizing bytes with
  | nil =>
    have hempty : bytes ++ (String.join []).toUTF8 = bytes := ByteArray.append_empty
    dsimp only
    rw [hempty, if_pos hbytes, extract_of_size_le hbytes]
    exact ⟨rfl, rfl⟩
  | cons piece pieces ih =>
    have hjoin : bytes ++ (String.join (piece :: pieces)).toUTF8 =
        bytes ++ piece.toUTF8 ++ (String.join pieces).toUTF8 := by
      rw [String.join_cons, ByteArray.append_assoc]
      simp
    dsimp only
    rw [hjoin]
    by_cases hfits : (bytes ++ piece.toUTF8).size ≤ n
    · have hemit : Sink.write { capacity := some n, bytes } piece =
          ({ capacity := some n, bytes := bytes ++ piece.toUTF8 }, none) := if_pos hfits
      rw [pour_of_taken hemit]
      exact ih hfits
    · have hemit : Sink.write { capacity := some n, bytes } piece =
          ({ capacity := some n, bytes := (bytes ++ piece.toUTF8).extract 0 n },
            some (.transfer .noRoom)) := if_neg hfits
      have hsize : ¬ (bytes ++ piece.toUTF8 ++ (String.join pieces).toUTF8).size ≤ n := by
        rw [ByteArray.size_append]
        omega
      rw [pour_of_refused hemit, if_neg hsize, extract_append_of_lt (Nat.lt_of_not_le hfits)]
      exact ⟨rfl, rfl⟩

end Listing

/-- A listing in a limited sink of its own. -/
theorem write_capacity {words : List Word} {m : Module}
    (hm : (Module.ofWords words).outcome = .ok m) {is : List Instruction}
    {failure : Option Diagnostic}
    (h : (first m).items g = is.map .ok ++ failure.toList.map .error) (n : Nat) :
    (write g p words { capacity := some n }).out.bytes =
        (Listing.text g p m.header is).toUTF8.extract 0 n ∧
      (write g p words { capacity := some n }).failure =
        if (Listing.text g p m.header is).toUTF8.size ≤ n then failure.map .invalidBinary
        else some (.transfer .noRoom) := by
  have hempty : ByteArray.empty.size ≤ n := Nat.zero_le n
  obtain ⟨hout, hrefusal⟩ := Listing.pour_limited hempty
    (m.header.comment g p :: is.map (·.line p))
  rw [ByteArray.empty_append, Listing.join_pieces] at hout hrefusal
  unfold write
  rw [Listing.run_eq_pour hm h]
  dsimp only
  rw [hout, hrefusal]
  refine ⟨rfl, ?_⟩
  split
  · exact Option.none_or
  · rfl

/-- **A limited sink** receives the start of what a sink without a limit receives, cut at its
capacity. Where all of it fits, the failure is that of the sink without a limit; otherwise it is the
lack of room, whatever would have failed behind it. -/
theorem write_limited (g : Grammar) (p : Palette) (words : List Word) (n : Nat) :
    let whole := write g p words {}
    let cut := write g p words { capacity := some n }
    cut.out.bytes = whole.out.bytes.extract 0 n ∧
      cut.out.bytes.size = min n whole.out.bytes.size ∧
      cut.failure = (if whole.out.bytes.size ≤ n then whole.failure
        else some (.transfer .noRoom)) ∧
      (Error.transfer .noRoom).message =
        "failed to write disassembly: failed to write whole buffer" := by
  have hcut : (write g p words { capacity := some n }).out.bytes =
        (write g p words {}).out.bytes.extract 0 n ∧
      (write g p words { capacity := some n }).failure =
        if (write g p words {}).out.bytes.size ≤ n then (write g p words {}).failure
        else some (.transfer .noRoom) := by
    rcases hm : (Module.ofWords words).outcome with d | m
    · unfold write
      rw [run_outcome_error _ _ hm, run_outcome_error _ _ hm]
      exact ⟨(Listing.extract_of_size_le (Nat.zero_le n)).symm, (if_pos (Nat.zero_le n)).symm⟩
    · obtain ⟨is, failure, hitems⟩ := exists_items_eq (g := g) (first m)
      obtain ⟨hout, hfailure⟩ := write_unbounded (p := p) hm hitems .empty
      rw [ByteArray.empty_append] at hout
      rw [hout, hfailure]
      exact write_capacity hm hitems n
  refine ⟨hcut.1, ?_, hcut.2, rfl⟩
  rw [hcut.1, ByteArray.size_extract, Nat.sub_zero]

end Spirv

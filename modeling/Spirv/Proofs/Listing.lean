import Spirv.Listing
import Spirv.Proofs.Run

/-!
# What a listing holds

- `Listing.text`: the listing of instructions behind a header, as one text that is spelled out;
  `Listing.join_pieces` says that the pieces of a listing come to it.
- `Listing.lines_of_reads`: the lines of instructions that are read one after another.
- `Listing.run_eq`: what a listing comes to in an outlet that takes every piece of it. Both entry
  points use such an outlet: `disassemble_eq` and `write_eq`.
- `listing_agrees`: the entry points agree with each other and with the items of the module.
-/

namespace Spirv

open Cursor

variable {g : Grammar} {p : Palette}

namespace Listing

/-- The listing of some instructions behind a header: five lines between the markers of a comment,
and each instruction with the end of its line. -/
def text (g : Grammar) (p : Palette) (h : Header) (is : List Instruction) : String :=
  (p.markers .comment).before ++ ("; SPIR-V\n; Version: " ++ h.version.decimal
    ++ "\n; Generator: " ++ g.generator h.generator
    ++ "\n; Bound: " ++ h.bound.decimal
    ++ "\n; Schema: " ++ h.schema.decimal ++ "\n") ++ (p.markers .comment).after
    ++ String.join (is.map fun i => i.render p ++ "\n")

/-- The pieces that are handed out make up the listing. -/
theorem join_pieces (g : Grammar) (p : Palette) (h : Header) (is : List Instruction) :
    String.join (h.comment g p :: is.map (·.line p)) = text g p h is := by
  rw [String.join_cons]
  rfl

variable {σ : Type} {emit : σ → String → σ × Option Error}

theorem lines_eq (out : σ) (log : Log) (c : Cursor) :
    lines g p emit out log c = match c.next g with
      | none => ⟨out, log, none⟩
      | some (.error d, _) => ⟨out, log.push (Item.record (.error d)), some (.invalidBinary d)⟩
      | some (.ok i, c') =>
        match emit out (i.line p) with
        | (out, some e) => ⟨out, log.push (Item.record (.ok i)), some e⟩
        | (out, none) => lines g p emit out (log.push (Item.record (.ok i))) c' := by
  rw [lines]
  split
  · next hnext => simp only [hnext]
  · next hnext => simp only [hnext]
  · next i c' hnext =>
    rcases hemit : emit out (i.line p) with ⟨out', _ | e⟩
    · simp only [hnext, hemit]
    · simp only [hnext, hemit]

/-! ## Outlets that take every piece -/

variable {β : Type} (place : β → σ) (push : β → String → β)

/-- **The lines of instructions** that are read one after another reach an outlet that takes every
piece, and each of them is reported. -/
theorem lines_of_reads (hemit : ∀ b piece, emit (place b) piece = (place (push b piece), none))
    {c c' : Cursor} {is : List Instruction} (h : Reads g c is c') (b : β) (log : Log) :
    lines g p emit (place b) log c =
      lines g p emit (place ((is.map (·.line p)).foldl push b))
        (log ++ (is.map fun i => Item.record (.ok i)).toArray) c' := by
  induction h generalizing b log with
  | refl c => simp
  | @cons c c' c'' i is hnext _ ih =>
    rw [lines_eq, hnext]
    dsimp only
    rw [hemit]
    dsimp only
    rw [ih, List.map_cons, List.foldl_cons, List.map_cons]
    simp

/-- **A listing** in an outlet that takes every piece: the header block and the lines, up to a
failure if there is one. -/
theorem run_eq (hemit : ∀ b piece, emit (place b) piece = (place (push b piece), none))
    {words : List Word} {m : Module} (hm : (Module.ofWords words).outcome = .ok m)
    {is : List Instruction} {failure : Option Diagnostic}
    (h : (first m).items g = is.map .ok ++ failure.toList.map .error) (b : β) :
    run g p emit (place b) words =
      { out := place ((m.header.comment g p :: is.map (·.line p)).foldl push b)
        log := (Module.ofWords words).log ++ (((first m).items g).map Item.record).toArray
        failure := failure.map .invalidBinary } := by
  obtain ⟨c, hreads, hitems⟩ := items_eq_append_iff.mp h
  have hstops : c.next g = _ := stops_iff.mpr hitems
  unfold run
  dsimp only
  rw [hm]
  dsimp only
  rw [hemit]
  dsimp only
  rw [lines_of_reads place push hemit hreads, lines_eq, hstops, h]
  cases failure with
  | none => simp [Function.comp_def]
  | some d => simp [Function.comp_def]

end Listing

/-! ## The entry points -/

/-- **A listing as a string.** There is no text if there is a failure, and the items are reported in
any case. -/
theorem disassemble_eq {words : List Word} {m : Module}
    (hm : (Module.ofWords words).outcome = .ok m) {is : List Instruction}
    {failure : Option Diagnostic}
    (h : (first m).items g = is.map .ok ++ failure.toList.map .error) :
    disassemble g p words =
      { outcome :=
          failure.elim (.ok (Listing.text g p m.header is)) fun d => .error (.invalidBinary d)
        log := (Module.ofWords words).log ++ (((first m).items g).map Item.record).toArray } := by
  have hjoin : (m.header.comment g p :: is.map (·.line p)).foldl (· ++ ·) "" =
      Listing.text g p m.header is := by
    rw [← String.join_eq_foldl, Listing.join_pieces]
  have hrun : Listing.run g p (fun text piece => (text ++ piece, none)) "" words = _ :=
    Listing.run_eq id (· ++ ·) (fun _ _ => rfl) hm h ""
  unfold disassemble
  dsimp only
  rw [hrun, hjoin]
  cases failure with
  | none => rfl
  | some d => rfl

theorem disassemble_outcome {words : List Word} {m : Module}
    (hm : (Module.ofWords words).outcome = .ok m) {is : List Instruction}
    {failure : Option Diagnostic}
    (h : (first m).items g = is.map .ok ++ failure.toList.map .error) :
    (disassemble g p words).outcome =
      failure.elim (.ok (Listing.text g p m.header is)) fun d => .error (.invalidBinary d) := by
  rw [disassemble_eq hm h]

theorem disassemble_outcome_ok {words : List Word} {m : Module}
    (hm : (Module.ofWords words).outcome = .ok m) {is : List Instruction}
    (h : (first m).items g = is.map .ok) :
    (disassemble g p words).outcome = .ok (Listing.text g p m.header is) := by
  have hwhole : (first m).items g = is.map .ok ++ (none : Option Diagnostic).toList.map .error := by
    rw [h]
    exact (List.append_nil _).symm
  exact disassemble_outcome hm hwhole

theorem disassemble_outcome_error {words : List Word} {m : Module}
    (hm : (Module.ofWords words).outcome = .ok m) {is : List Instruction} {d : Diagnostic}
    (h : (first m).items g = is.map .ok ++ [.error d]) :
    (disassemble g p words).outcome = .error (.invalidBinary d) := by
  have hfailed : (first m).items g = is.map .ok ++ (some d).toList.map .error := h
  exact disassemble_outcome hm hfailed

/-- Pieces of text reach a sink as their bytes one after another. -/
theorem foldl_append_toUTF8 (pieces : List String) (bytes : ByteArray) :
    pieces.foldl (fun bytes piece => bytes ++ piece.toUTF8) bytes =
      bytes ++ (String.join pieces).toUTF8 := by
  induction pieces generalizing bytes with
  | nil => simp
  | cons piece pieces ih =>
    rw [List.foldl_cons, ih, String.join_cons, ByteArray.append_assoc]
    simp

/-- **A listing in a sink without a limit.** The text before a failure stays. -/
theorem write_eq {words : List Word} {m : Module}
    (hm : (Module.ofWords words).outcome = .ok m) {is : List Instruction}
    {failure : Option Diagnostic}
    (h : (first m).items g = is.map .ok ++ failure.toList.map .error) (bytes : ByteArray) :
    write g p words { bytes } =
      { out := { bytes := bytes ++ (Listing.text g p m.header is).toUTF8 }
        log := (Module.ofWords words).log ++ (((first m).items g).map Item.record).toArray
        failure := failure.map .invalidBinary } := by
  have hrun : Listing.run g p Sink.write { bytes } words = _ :=
    Listing.run_eq (fun bytes => ({ bytes } : Sink)) (fun bytes piece => bytes ++ piece.toUTF8)
      (fun _ _ => rfl) hm h bytes
  unfold write
  rw [hrun, foldl_append_toUTF8, Listing.join_pieces]

theorem write_unbounded {words : List Word} {m : Module}
    (hm : (Module.ofWords words).outcome = .ok m) {is : List Instruction}
    {failure : Option Diagnostic}
    (h : (first m).items g = is.map .ok ++ failure.toList.map .error) (bytes : ByteArray) :
    (write g p words { bytes }).out =
        { bytes := bytes ++ (Listing.text g p m.header is).toUTF8 } ∧
      (write g p words { bytes }).failure = failure.map .invalidBinary := by
  rw [write_eq hm h]
  exact ⟨rfl, rfl⟩

/-- Nothing is listed without a header. -/
theorem run_outcome_error {σ : Type} (emit : σ → String → σ × Option Error) (out : σ)
    {words : List Word} {d : Diagnostic} (h : (Module.ofWords words).outcome = .error d) :
    Listing.run g p emit out words =
      { out, log := (Module.ofWords words).log, failure := some (.invalidBinary d) } := by
  unfold Listing.run
  dsimp only
  rw [h]

theorem disassemble_of_error {words : List Word} {d : Diagnostic}
    (h : (Module.ofWords words).outcome = .error d) :
    disassemble g p words =
      { outcome := .error (.invalidBinary d), log := (Module.ofWords words).log } := by
  unfold disassemble
  dsimp only
  rw [run_outcome_error _ _ h]

theorem disassemble_outcome_of_error {words : List Word} {d : Diagnostic}
    (h : (Module.ofWords words).outcome = .error d) :
    (disassemble g p words).outcome = .error (.invalidBinary d) := by
  rw [disassemble_of_error h]

/-- A listing that is handed out as a string is that of the instructions of a module. -/
theorem exists_text_of_disassemble {words : List Word} {text : String}
    (h : (disassemble g p words).outcome = .ok text) :
    ∃ (m : Module) (is : List Instruction), (Module.ofWords words).outcome = .ok m ∧
      (first m).items g = is.map .ok ∧ text = Listing.text g p m.header is := by
  rcases hm : (Module.ofWords words).outcome with d | m
  · rw [disassemble_outcome_of_error hm] at h
    contradiction
  · obtain ⟨is, failure, hitems⟩ := exists_items_eq (g := g) (first m)
    rw [disassemble_outcome hm hitems] at h
    cases failure with
    | some d => contradiction
    | none =>
      cases h
      exact ⟨m, is, rfl, hitems.trans (List.append_nil _), rfl⟩

/-- **The entry points agree.** Without a header both fail for the same reason, and nothing is
written. Otherwise what reaches a sink is the header block and the line of each instruction that is
read, and the failure is that of reading. The same is the listing as a string if there is no
failure. In any case it is the listing of the words that have been read, up to the place where an
instruction could not be. -/
theorem listing_agrees (g : Grammar) (p : Palette) (words : List Word) :
    (∀ d, (Module.ofWords words).outcome = .error d →
      (disassemble g p words).outcome = .error (.invalidBinary d) ∧
      ∀ bytes, (write g p words { bytes }).out = { bytes } ∧
        (write g p words { bytes }).failure = some (.invalidBinary d)) ∧
    ∀ m, (Module.ofWords words).outcome = .ok m →
      ∃ (is : List Instruction) (failure : Option Diagnostic),
        (first m).items g = is.map .ok ++ failure.toList.map .error ∧
        (∀ bytes, (write g p words { bytes }).out =
            { bytes := bytes ++ (Listing.text g p m.header is).toUTF8 } ∧
          (write g p words { bytes }).failure = failure.map .invalidBinary) ∧
        (disassemble g p words).outcome =
          failure.elim (.ok (Listing.text g p m.header is)) (fun d => .error (.invalidBinary d)) ∧
        ((first m).last g).position = Header.size + (is.map (·.wordCount)).sum ∧
        (disassemble g p (words.take ((first m).last g).position)).outcome =
          .ok (Listing.text g p m.header is) := by
  refine ⟨fun d h => ⟨?_, fun bytes => ?_⟩, fun m hm => ?_⟩
  · exact disassemble_outcome_of_error h
  · unfold write
    rw [run_outcome_error _ _ h]
    exact ⟨rfl, rfl⟩
  · obtain ⟨is, c, failure, hreads, hstops⟩ := exists_run (g := g) (first m)
    have hlast : ((first m).last g).position = c.position := by
      rw [hreads.last_eq, hstops.last_eq]
      split
      · rfl
      · rfl
    have hitems : (first m).items g = is.map .ok ++ failure.toList.map .error := by
      rw [hreads.items_eq, hstops.items_eq]
    refine ⟨is, failure, hitems, write_unbounded hm hitems, disassemble_outcome hm hitems, ?_, ?_⟩
    · rw [hlast]
      exact hreads.position_eq
    · obtain ⟨m', hm', hheader, his⟩ := hreads.exists_take hm
      rw [hlast, disassemble_outcome_ok hm' his, hheader]

/-- A module with one instruction before an unknown opcode: what has been written when reading fails
is the listing of its first nine words. A module of one word has no header. -/
theorem listing_agrees_unknown_opcode :
    let words := [magicNumber, 0x00010000, 0, 5, 0, 0x00040015, 1, 32, 0, 0x0001FFFF]
    let text := "\x1b[1;30m; SPIR-V\n; Version: 65536\n; Generator: Khronos\n; Bound: 5\n" ++
      "; Schema: 0\n\x1b[0m\x1b[34m%1\x1b[0m = OpTypeInt \x1b[31m32\x1b[0m \x1b[31m0\x1b[0m\n"
    let fault : Error := .invalidBinary ⟨9, some 0x0001FFFF, .unknownOpcode 65535⟩
    (disassemble .core .ansi words).outcome = .error fault ∧
    (write .core .ansi words {}).failure = some fault ∧
    (write .core .ansi words {}).out = { bytes := text.toUTF8 } ∧
    (disassemble .core .ansi (words.take 9)).outcome = .ok text ∧
    (disassemble .core .ansi [magicNumber]).outcome =
      .error (.invalidBinary ⟨1, none, .truncatedHeader 1⟩) ∧
    (write .core .ansi [magicNumber] {}).out = {} := by
  intro words text fault
  let m : Module := ⟨.little, .ofBound 5, [0x00040015, 1, 32, 0, 0x0001FFFF]⟩
  let i : Instruction := ⟨.opTypeInt, 5, 4, some 0,
    [⟨.resultId, 1, [], ⟨some .resultId, "%1"⟩⟩, ⟨.literal, 32, [], ⟨some .literal, "32"⟩⟩,
      ⟨.literal, 0, [], ⟨some .literal, "0"⟩⟩]⟩
  have hm : (Module.ofWords words).outcome = .ok m := rfl
  obtain ⟨is, failure, hitems, hwrite, hdisassemble, -, htake⟩ :=
    (listing_agrees .core .ansi words).2 m hm
  have hread : (first m).items .core =
      [i].map .ok ++ (some ⟨9, some 0x0001FFFF, .unknownOpcode 65535⟩).toList.map .error := by
    decide +kernel
  obtain ⟨rfl, rfl⟩ := eq_of_map_ok_append_eq (hitems.symm.trans hread)
  have htext : Listing.text .core .ansi m.header [i] = text := by decide +kernel
  have hlast : ((first m).last .core).position = 9 := by decide +kernel
  rw [htext, hlast] at htake
  obtain ⟨hout, hfailure⟩ := hwrite .empty
  rw [htext, ByteArray.empty_append] at hout
  obtain ⟨hshort, hnothing⟩ := (listing_agrees .core .ansi [magicNumber]).1 _ rfl
  exact ⟨hdisassemble, hfailure, hout, htake, hshort, (hnothing .empty).1⟩

end Spirv

import Spirv.Proofs.ByteOrder
import Spirv.Proofs.Capacity

/-!
# What is reported

The log of a listing, and that of reading the items of a module one by one.

- `Module.opening`, `Instruction.trace`, `Diagnostic.stop`: the records of a module that has been
  opened, of an instruction and of a failure. `Module.story` puts them together.
- `Module.ofWords_cases`: what opening some words gives and reports.
- `Cursor.toList_log`: reading item by item reports each item once.
- `Reports`: what every way of going through some words reports; `reports_of_error` and
  `reports_story` say what that is.
- `Listing.pour_cases`: how many pieces an outlet takes before it refuses one.
- `Curtailed`: how much is reported where a sink has too little room, by `curtailed_write`.
- `log_follows_reading`: every listing reports what it has read, in any palette, and the log of a
  limited sink ends with the line that does not fit.
-/

namespace Spirv

open Cursor

variable {g : Grammar} {p : Palette}

/-! ## Records -/

/-- What is reported about a module that has been opened: its byte order and its header, and a
warning if the reserved word of the header is not zero. -/
def Module.opening (m : Module) : List Record :=
  [m.order.record,
    { level := .debug
      message := "module header: version " ++ m.header.version.hexPadded ++ ", generator "
        ++ m.header.generator.decimal ++ ", bound " ++ m.header.bound.decimal }] ++
  if m.header.schema = 0 then []
  else [⟨.warn, "module header has reserved schema " ++ m.header.schema.decimal⟩]

/-- What is reported about an instruction: its position, at the right of six places, and its plain
line. -/
def Instruction.trace (i : Instruction) : Record where
  level := .trace
  message := String.ofList (List.replicate (6 - (toString i.position).length) ' ')
    ++ toString i.position ++ ": " ++ i.render .plain

/-- What is reported about a failure. -/
def Diagnostic.stop (d : Diagnostic) : Record where
  level := .debug
  message := "disassembly stopped: " ++ (Error.invalidBinary d).message

/-- What is reported while a module is read to its end: how it was opened, each instruction, and the
failure if there is one. -/
def Module.story (m : Module) (is : List Instruction) (failure : Option Diagnostic) :
    List Record :=
  m.opening ++ is.map (·.trace) ++ failure.toList.map (·.stop)

theorem Item.record_ok (i : Instruction) : Item.record (.ok i) = i.trace := by
  have hpadded : String.ofList ((toString i.position).toList.leftpad 6 ' ') =
      String.ofList (List.replicate (6 - (toString i.position).length) ' ') ++
        toString i.position := by
    rw [List.leftpad, String.ofList_append, String.ofList_toList, String.length_toList]
  rw [Item.record, hpadded, Instruction.trace]

theorem map_record_ok (is : List Instruction) :
    (is.map Except.ok).map Item.record = is.map (·.trace) := by
  rw [List.map_map]
  exact List.map_congr_left fun i _ => Item.record_ok i

/-- The story goes on with what is reported about each item. -/
theorem Module.story_eq (m : Module) (is : List Instruction) (failure : Option Diagnostic) :
    m.story is failure =
      m.opening ++ (is.map Except.ok ++ failure.toList.map Except.error).map Item.record := by
  rw [List.map_append, map_record_ok, List.map_map, story, List.append_assoc]
  rfl

/-! ## Opening -/

theorem Module.opening_eq (m : Module) :
    m.opening = (#[m.order.record] ++ m.header.records).toList := by
  unfold opening Header.records
  split
  · rfl
  · rfl

/-- **The byte order** is reported if there is one. -/
theorem ByteOrder.detect_cases (words : List Word) :
    (¬ StartsWithMagic words ∧ ∃ d, detect words = ⟨.error d, #[]⟩) ∨
      (StartsWithMagic words ∧ ∃ order, detect words = ⟨.ok order, #[order.record]⟩) := by
  unfold StartsWithMagic
  cases words with
  | nil => exact .inl ⟨by simp, _, rfl⟩
  | cons first rest =>
    rw [detect, List.head?_cons, Option.some_inj, Option.some_inj]
    split_ifs with hlittle hbig
    · exact .inr ⟨.inl hlittle, _, rfl⟩
    · exact .inr ⟨.inr hbig, _, rfl⟩
    · exact .inl ⟨not_or.mpr ⟨hlittle, hbig⟩, _, rfl⟩

/-- A header is read exactly if its words are there. -/
theorem Header.read_cases (words : List Word) (order : ByteOrder) :
    (words.length < size ∧ ∃ d, read words order = .error d) ∨
      (size ≤ words.length ∧ ∃ h, read words order = .ok h) := by
  match words with
  | [] | [_] | [_, _] | [_, _, _] | [_, _, _, _] => exact .inl ⟨by simp [size], _, rfl⟩
  | _ :: _ :: _ :: _ :: _ :: rest =>
    refine .inr ⟨?_, _, rfl⟩
    simp [size]

/-- **Opening**: nothing is reported without a magic number, only the byte order without a header,
and both if there is one. -/
theorem Module.ofWords_cases (words : List Word) :
    (¬ StartsWithMagic words ∧ ∃ d, ofWords words = ⟨.error d, #[]⟩) ∨
    (StartsWithMagic words ∧ words.length < Header.size ∧ ∃ order d,
      (ByteOrder.detect words).outcome = .ok order ∧
      ofWords words = ⟨.error d, #[order.record]⟩) ∨
    (StartsWithMagic words ∧ Header.size ≤ words.length ∧ ∃ m,
      (ByteOrder.detect words).outcome = .ok m.order ∧
      (ofWords words).outcome = .ok m ∧ (ofWords words).log.toList = m.opening) := by
  rcases ByteOrder.detect_cases words with ⟨hmagic, d, hdetect⟩ | ⟨hmagic, order, hdetect⟩
  · refine .inl ⟨hmagic, d, ?_⟩
    simp only [ofWords, hdetect]
  · rcases Header.read_cases words order with ⟨hsize, d, hread⟩ | ⟨hsize, header, hread⟩
    · refine .inr (.inl ⟨hmagic, hsize, order, d, ?_, ?_⟩)
      · rw [hdetect]
      · simp only [ofWords, hdetect, hread]
    · refine .inr (.inr ⟨hmagic, hsize, ⟨order, header, words.drop Header.size⟩, ?_, ?_, ?_⟩)
      · rw [hdetect]
      · simp only [ofWords, hdetect, hread]
      · rw [Module.opening_eq]
        simp only [ofWords, hdetect, hread]

theorem Module.toList_log {words : List Word} {m : Module} (h : (ofWords words).outcome = .ok m) :
    (ofWords words).log.toList = m.opening := by
  rcases ofWords_cases words with
    ⟨-, d, hopen⟩ | ⟨-, -, order, d, -, hopen⟩ | ⟨-, -, m', -, hm', hlog⟩
  · rw [hopen] at h
    contradiction
  · rw [hopen] at h
    contradiction
  · obtain rfl : m' = m := Except.ok.inj (hm'.symm.trans h)
    exact hlog

/-! ## Reading -/

theorem Cursor.toList_logOnto (log : Log) (c : Cursor) :
    (c.logOnto g log).toList = log.toList ++ (c.items g).map Item.record := by
  rw [logOnto, items_eq]
  split
  · next hnext => simp [hnext]
  · next item c' hnext =>
    rw [hnext, toList_logOnto (log.push (Item.record item)) c']
    simp
termination_by c.measure
decreasing_by exact measure_next (by assumption)

/-- **Reading item by item** reports each item once, in order. -/
theorem Cursor.toList_log (c : Cursor) : (c.log g).toList = (c.items g).map Item.record :=
  toList_logOnto #[] c

/-- `Reports g words log`: every way of going through all of some words reports `log`, whatever the
palette. These are the listing as a string, the listing in a sink without a limit, and the items one
by one, if there is a header behind which they stand. -/
structure Reports (g : Grammar) (words : List Word) (log : List Record) : Prop where
  text : ∀ p, (disassemble g p words).log.toList = log
  written : ∀ p bytes, (write g p words { bytes }).log.toList = log
  unopened : ∀ d, (Module.ofWords words).outcome = .error d →
    (Module.ofWords words).log.toList = log
  items : ∀ m, (Module.ofWords words).outcome = .ok m →
    ((Module.ofWords words).log ++ (first m).log g).toList = log

/-- Without a header there is nothing to report but what opening does, in any sink. -/
theorem reports_of_error {words : List Word} {d : Diagnostic} {log : Log}
    (h : Module.ofWords words = ⟨.error d, log⟩) :
    Reports g words log.toList ∧ ∀ p sink, (write g p words sink).log.toList = log.toList := by
  have houtcome : (Module.ofWords words).outcome = .error d := by rw [h]
  have hwrite : ∀ p sink, (write g p words sink).log.toList = log.toList := by
    intro p sink
    rw [write, run_outcome_error _ _ houtcome, h]
  refine ⟨?_, hwrite⟩
  exact {
    text := fun p => by rw [disassemble_of_error houtcome, h]
    written := fun p bytes => hwrite p { bytes }
    unopened := fun _ _ => by rw [h]
    items := fun m hm => by
      rw [houtcome] at hm
      contradiction }

/-- The records of opening a module and of its items are its story. -/
theorem Module.toList_log_append {words : List Word} {m : Module}
    (hm : (Module.ofWords words).outcome = .ok m) {is : List Instruction}
    {failure : Option Diagnostic}
    (h : (first m).items g = is.map .ok ++ failure.toList.map .error) :
    ((Module.ofWords words).log ++ (((first m).items g).map Item.record).toArray).toList =
      m.story is failure := by
  rw [Array.toList_append, Module.toList_log hm, h, Module.story_eq]

/-- **With a header** the log is the story of the module. -/
theorem reports_story {words : List Word} {m : Module}
    (hm : (Module.ofWords words).outcome = .ok m) {is : List Instruction}
    {failure : Option Diagnostic}
    (h : (first m).items g = is.map .ok ++ failure.toList.map .error) :
    Reports g words (m.story is failure) where
  text p := by
    rw [disassemble_eq hm h]
    exact Module.toList_log_append hm h
  written p bytes := by
    rw [write_eq hm h]
    exact Module.toList_log_append hm h
  unopened d hd := by
    rw [hm] at hd
    contradiction
  items m' hm' := by
    obtain rfl : m = m' := Except.ok.inj (hm.symm.trans hm')
    rw [← Module.toList_log_append hm h, Array.toList_append, Array.toList_append, toList_log]

/-! ## Limited sinks -/

namespace Listing

/-- **Pieces in an outlet**: it takes all of them, or all before one that it refuses. -/
theorem pour_cases {σ : Type} (emit : σ → String → σ × Option Error) (out : σ)
    (pieces : List String) :
    ((pour emit out pieces).refusal = none ∧ (pour emit out pieces).taken = pieces.length) ∨
    ∃ before piece after, pieces = before ++ piece :: after ∧
      (pour emit out before).refusal = none ∧
      (pour emit out (before ++ [piece])).refusal ≠ none ∧
      (pour emit out pieces).taken = before.length := by
  induction pieces generalizing out with
  | nil => exact .inl ⟨rfl, rfl⟩
  | cons piece pieces ih =>
    rcases hemit : emit out piece with ⟨out', _ | e⟩
    · -- the first piece is taken, so the one that is refused is among the others
      rw [pour_of_taken hemit]
      rcases ih out' with ⟨hrefusal, htaken⟩ | ⟨before, refused, after, rfl, hfirst, hover, htaken⟩
      · exact .inl ⟨hrefusal, congrArg (· + 1) htaken⟩
      · refine .inr ⟨piece :: before, refused, after, rfl, ?_, ?_, congrArg (· + 1) htaken⟩
        · rw [pour_of_taken hemit]
          exact hfirst
        · rw [List.cons_append, pour_of_taken hemit]
          exact hover
    · refine .inr ⟨[], piece, pieces, rfl, rfl, ?_, ?_⟩
      · rw [List.nil_append, pour_of_refused hemit]
        exact Option.some_ne_none e
      · rw [pour_of_refused hemit]
        rfl

/-- A limited sink refuses none of some pieces exactly if it has room for them all. -/
theorem refusal_eq_none_iff {bytes : ByteArray} {room : Nat} {pieces : List String} :
    (pour Sink.write { capacity := some (bytes.size + room), bytes } pieces).refusal = none ↔
      (String.join pieces).utf8ByteSize ≤ room := by
  have hsize : (bytes ++ (String.join pieces).toUTF8).size =
      bytes.size + (String.join pieces).utf8ByteSize := ByteArray.size_append
  rw [(pour_limited (Nat.le_add_right bytes.size room) pieces).2, hsize, ite_eq_left_iff,
    Nat.add_le_add_iff_left]
  constructor
  · intro h
    by_contra hover
    exact Option.some_ne_none _ (h hover)
  · intro h hover
    exact absurd h hover

/-- **A listing in a limited sink**: not even the header block fits, or the line of some instruction
is the first that does not, or all of it fits. -/
theorem pour_text_cases (h : Header) (is : List Instruction) (bytes : ByteArray) (room : Nat) :
    let r := pour Sink.write { capacity := some (bytes.size + room), bytes }
      (h.comment g p :: is.map (·.line p))
    (room < (h.comment g p).utf8ByteSize ∧ r.taken = 0) ∨
    (∃ before i after, is = before ++ i :: after ∧
      (text g p h before).utf8ByteSize ≤ room ∧ room < (text g p h (before ++ [i])).utf8ByteSize ∧
      r.taken = before.length + 1) ∨
    ((text g p h is).utf8ByteSize ≤ room ∧ r.taken = is.length + 1) := by
  rcases pour_cases Sink.write { capacity := some (bytes.size + room), bytes }
      (h.comment g p :: is.map (·.line p)) with
    ⟨hrefusal, htaken⟩ | ⟨before, piece, after, hpieces, hfits, hover, htaken⟩
  · rw [refusal_eq_none_iff, join_pieces] at hrefusal
    rw [List.length_cons, List.length_map] at htaken
    exact .inr (.inr ⟨hrefusal, htaken⟩)
  · rw [refusal_eq_none_iff] at hfits
    rw [Ne, refusal_eq_none_iff, Nat.not_le] at hover
    -- the first piece is the header block, and each other piece is the line of an instruction
    cases before with
    | nil =>
      obtain ⟨rfl, -⟩ := List.cons.inj hpieces
      rw [List.nil_append, String.join_cons, String.join_nil, String.append_empty] at hover
      exact .inl ⟨hover, htaken⟩
    | cons block before =>
      obtain ⟨rfl, hlines⟩ := List.cons.inj hpieces
      obtain ⟨earlier, later, rfl, rfl, hlater⟩ := List.map_eq_append_iff.mp hlines
      obtain ⟨i, rest, rfl, rfl, rfl⟩ := List.map_eq_cons_iff.mp hlater
      rw [join_pieces] at hfits
      rw [List.cons_append, ← List.map_singleton, ← List.map_append, join_pieces] at hover
      rw [List.length_cons, List.length_map] at htaken
      exact .inr (.inl ⟨earlier, i, rest, rfl, hfits, hover, htaken⟩)

end Listing

/-- `Curtailed g p m is failure room log`: of the story of the module `m`, a sink with room for
`room` bytes lets `log` happen. An instruction is reported before its line is written, so the one
whose line does not fit is the last. -/
inductive Curtailed (g : Grammar) (p : Palette) (m : Module) (is : List Instruction)
    (failure : Option Diagnostic) (room : Nat) : List Record → Prop where
  /-- The header block does not fit. -/
  | header (hover : room < (m.header.comment g p).utf8ByteSize) :
      Curtailed g p m is failure room m.opening
  /-- The line of `i` is the first that does not fit. -/
  | line {before after : List Instruction} {i : Instruction} (his : is = before ++ i :: after)
      (hfits : (Listing.text g p m.header before).utf8ByteSize ≤ room)
      (hover : room < (Listing.text g p m.header (before ++ [i])).utf8ByteSize) :
      Curtailed g p m is failure room (m.opening ++ (before ++ [i]).map (·.trace))
  /-- All of the listing fits. -/
  | whole (hfits : (Listing.text g p m.header is).utf8ByteSize ≤ room) :
      Curtailed g p m is failure room (m.story is failure)

/-- What is reported is an initial segment of the story. -/
theorem Curtailed.isPrefix {m : Module} {is : List Instruction} {failure : Option Diagnostic}
    {room : Nat} {log : List Record} (h : Curtailed g p m is failure room log) :
    log <+: m.story is failure := by
  cases h with
  | header => exact (List.prefix_append _ _).trans (List.prefix_append _ _)
  | @line before after i his =>
    subst his
    have hreported : (before ++ [i]).map (·.trace) <+: (before ++ i :: after).map (·.trace) := by
      rw [List.append_cons before i after]
      exact (List.prefix_append (before ++ [i]) after).map _
    exact ((List.prefix_append_right_inj _).mpr hreported).trans (List.prefix_append _ _)
  | whole => exact List.prefix_refl _

/-- **The log of a limited sink** goes as far as its lines do. -/
theorem curtailed_write {words : List Word} {m : Module}
    (hm : (Module.ofWords words).outcome = .ok m) {is : List Instruction}
    {failure : Option Diagnostic}
    (h : (first m).items g = is.map .ok ++ failure.toList.map .error) (p : Palette)
    (bytes : ByteArray) (room : Nat) :
    Curtailed g p m is failure room
      (write g p words { capacity := some (bytes.size + room), bytes }).log.toList := by
  unfold write
  rw [Listing.run_eq_pour hm h]
  dsimp only
  rw [Array.toList_append, Module.toList_log hm, h]
  rcases Listing.pour_text_cases (g := g) (p := p) m.header is bytes room with
    ⟨hover, htaken⟩ | ⟨before, i, after, rfl, hfits, hover, htaken⟩ | ⟨hfits, htaken⟩
  · rw [htaken, List.take_zero, List.map_nil, List.append_nil]
    exact .header hover
  · -- the instruction whose line is refused has been reported
    have hsplit : ((before ++ i :: after).map Except.ok : List Item) =
        (before ++ [i]).map Except.ok ++ after.map Except.ok := by
      rw [List.append_cons before, List.map_append]
    have htake : (((before ++ i :: after).map Except.ok ++ failure.toList.map Except.error :
        List Item).take (before.length + 1)) = (before ++ [i]).map Except.ok := by
      rw [hsplit, List.append_assoc]
      exact List.take_left' (by simp)
    rw [htaken, htake, map_record_ok]
    exact .line rfl hfits hover
  · have hall : (is.map Except.ok ++ failure.toList.map Except.error : List Item).length ≤
        is.length + 1 := by
      cases failure <;> simp
    rw [htaken, List.take_of_length_le hall, ← Module.story_eq]
    exact .whole hfits

/-- **The log follows what is read.** Nothing is reported without a magic number, and only the byte
order without a header. Behind a header every way of going through the words tells the same story,
in any palette: the byte order and the header, with a warning exactly if the reserved word is not
zero, the position and the plain line of each instruction, and the failure if there is one. In a
sink with room for `room` more bytes the story is cut behind the first line that does not fit, or
behind the header if its block does not. -/
theorem log_follows_reading (g : Grammar) (words : List Word) :
    (¬ StartsWithMagic words →
      Reports g words [] ∧ ∀ p sink, (write g p words sink).log.toList = []) ∧
    (StartsWithMagic words → words.length < Header.size →
      ∃ order, (ByteOrder.detect words).outcome = .ok order ∧ Reports g words [order.record] ∧
        ∀ p sink, (write g p words sink).log.toList = [order.record]) ∧
    (StartsWithMagic words → Header.size ≤ words.length →
      ∃ (m : Module) (is : List Instruction) (failure : Option Diagnostic),
        (ByteOrder.detect words).outcome = .ok m.order ∧
        (Module.ofWords words).outcome = .ok m ∧
        (first m).items g = is.map .ok ++ failure.toList.map .error ∧
        Reports g words (m.story is failure) ∧
        ∀ p bytes room,
          let cut := (write g p words { capacity := some (bytes.size + room), bytes }).log.toList
          Curtailed g p m is failure room cut ∧ cut <+: m.story is failure) := by
  rcases Module.ofWords_cases words with
    ⟨hmagic, d, hopen⟩ | ⟨hmagic, hsize, order, d, horder, hopen⟩ |
      ⟨hmagic, hsize, m, horder, hm, -⟩
  · exact ⟨fun _ => reports_of_error hopen, fun h => absurd h hmagic, fun h => absurd h hmagic⟩
  · refine ⟨fun h => absurd hmagic h, fun _ _ => ⟨order, horder, reports_of_error hopen⟩, ?_⟩
    intro _ h
    omega
  · refine ⟨fun h => absurd hmagic h, fun _ h => ?_, fun _ _ => ?_⟩
    · omega
    · obtain ⟨is, failure, hitems⟩ := exists_items_eq (g := g) (first m)
      refine ⟨m, is, failure, horder, hm, hitems, reports_story hm hitems, ?_⟩
      intro p bytes room
      have hcut := curtailed_write hm hitems p bytes room
      exact ⟨hcut, hcut.isPrefix⟩

/-- A module whose reserved word is 7, with one instruction before an unknown opcode, and a sink
that has room for the header block alone: the instruction is reported there too, although its line
does not fit, and the failure behind it is not. -/
theorem log_follows_reading_reserved_schema :
    let words := [magicNumber, 0x00010000, 0, 5, 7, 0x00020011, 1, 0x0001FFFF]
    let order : Record := ⟨.debug, "stream is Little endian, host is Little endian"⟩
    let story : List Record := [order,
      ⟨.debug, "module header: version 0x00010000, generator 0, bound 5"⟩,
      ⟨.warn, "module header has reserved schema 7"⟩,
      ⟨.trace, "     5: OpCapability Shader"⟩,
      ⟨.debug,
        "disassembly stopped: invalid binary at word 7 (0x0001ffff): invalid opcode '65535'"⟩]
    (¬ StartsWithMagic [0] ∧ Reports .core [0] []) ∧
      (StartsWithMagic [magicNumber] ∧ [magicNumber].length < Header.size ∧
        Reports .core [magicNumber] [order]) ∧
      StartsWithMagic words ∧ Header.size ≤ words.length ∧ Reports .core words story ∧
      (write .core .plain words { capacity := some 70 }).log.toList = story.take 4 := by
  intro words order story
  have hm : (Module.ofWords words).outcome =
      .ok ⟨.little, ⟨magicNumber, 0x00010000, 0, 5, 7⟩, [0x00020011, 1, 0x0001FFFF]⟩ := rfl
  refine ⟨⟨by decide, ?_⟩, ⟨.inl rfl, by decide, ?_⟩, .inl rfl, by decide, ?_⟩
  · exact ((log_follows_reading .core [0]).1 (by decide)).1
  · obtain ⟨order', horder, hreports, -⟩ :=
      (log_follows_reading .core [magicNumber]).2.1 (.inl rfl) (by decide)
    cases horder
    exact hreports
  · obtain ⟨m, is, failure, -, hm', hitems, hreports, hcut⟩ :=
      (log_follows_reading .core words).2.2 (.inl rfl) (by decide)
    obtain rfl := Except.ok.inj (hm.symm.trans hm')
    let capability : Instruction :=
      ⟨.opCapability, 5, 2, none, [⟨.capability, 1, [], ⟨none, "Shader"⟩⟩]⟩
    let unknown : Diagnostic := ⟨7, some 0x0001FFFF, .unknownOpcode 65535⟩
    have hread : (first ⟨.little, ⟨magicNumber, 0x00010000, 0, 5, 7⟩,
        [0x00020011, 1, 0x0001FFFF]⟩).items .core =
          [capability].map .ok ++ (some unknown).toList.map .error := by decide +kernel
    have hstory : Module.story ⟨.little, ⟨magicNumber, 0x00010000, 0, 5, 7⟩,
        [0x00020011, 1, 0x0001FFFF]⟩ [capability] (some unknown) = story := by decide +kernel
    obtain ⟨rfl, rfl⟩ := eq_of_map_ok_append_eq (hitems.symm.trans hread)
    rw [hstory] at hreports
    refine ⟨hreports, ?_⟩
    have hcurtailed := (hcut .plain .empty 70).1
    rw [ByteArray.size_empty, Nat.zero_add] at hcurtailed
    generalize (write .core .plain words { capacity := some 70 }).log.toList = cut at hcurtailed ⊢
    cases hcurtailed with
    | header hover =>
      revert hover
      decide +kernel
    | @line before after i his =>
      obtain ⟨rfl, rfl, rfl⟩ : before = [] ∧ i = capability ∧ after = [] := by
        cases before <;> simp_all
      decide +kernel
    | whole hfits =>
      revert hfits
      decide +kernel

end Spirv

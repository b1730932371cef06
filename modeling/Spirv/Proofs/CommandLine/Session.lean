import Spirv.Proofs.CommandLine.Arguments
import Spirv.Proofs.CommandLine.FileTree
import Spirv.Proofs.Log

/-!
# What a session leaves behind

- `level_write`: the library itself reports no error.
- `Options.given`, `Options.listing`: the words of an input and the listing of them, as a command
  line asks for them.
- `Options.outcome_eq`: a failure is reported, and the verbosity bounds what is shown.
- `run_session_of_error`, `run_session_standard`, `run_session_file`: a session on a tree of files,
  by what its input is and where its output goes.
- `Options.Listed`: a session that writes the listing of its input to its destination.
- `session_exact`: every session either fails with its input or writes the listing of it, and more
  requests for log change only the log.
-/

namespace Spirv

open CommandLine

/-! ## The log of the library -/

/-- Opening a module reports no error. -/
theorem Module.level_ofWords {words : List Word} {r : Record}
    (h : r ∈ (Module.ofWords words).log) : r.level ≠ .error := by
  rcases Module.ofWords_cases words with
    ⟨-, d, hopen⟩ | ⟨-, -, order, d, -, hopen⟩ | ⟨-, -, m, -, -, hlog⟩
  · rw [hopen] at h
    simp at h
  · rw [hopen, Array.mem_singleton] at h
    simp [h, ByteOrder.record]
  · rw [← Array.mem_toList_iff, hlog] at h
    rcases List.mem_append.mp h with h | h
    · rcases List.mem_pair.mp h with rfl | rfl
      · simp [ByteOrder.record]
      · simp
    · split at h
      · contradiction
      · obtain rfl := List.mem_singleton.mp h
        simp

/-- **The library reports no error.** -/
theorem level_write {g : Grammar} {p : Palette} {words : List Word} {r : Record}
    (h : r ∈ (write g p words {}).log) : r.level ≠ .error := by
  cases hm : (Module.ofWords words).outcome with
  | error d =>
    rw [write, run_outcome_error _ _ hm] at h
    exact Module.level_ofWords h
  | ok m =>
    obtain ⟨is, failure, hitems⟩ := Cursor.exists_items_eq (g := g) (.first m)
    rw [write_eq hm hitems] at h
    rcases Array.mem_append.mp h with h | h
    · exact Module.level_ofWords h
    · obtain ⟨item, -, rfl⟩ := List.mem_map.mp (List.mem_toArray.mp h)
      cases item <;> simp [Item.record]

namespace CommandLine

/-! ## What a command line asks for -/

/-- The number of requests for log from which on records of a level are shown. -/
def requestsFor : Level → Nat
  | .error => 0
  | .warn => 0
  | .info => 1
  | .debug => 2
  | .trace => 3

/-- The report of an error. -/
def errorRecord (e : Error) : Record := ⟨.error, e.message⟩

namespace Options

variable (o : Options)

/-- The bytes of the input of a session that starts with the tree `t`. The name `-` stands for
standard input, and so does no name. -/
def bytes (t : FileTree) : Except TransferFault (List UInt8) :=
  match o.input with
  | none => .ok t.input
  | some path => if path = "-" then .ok t.input else t.find path

/-- The words of the input: those of a word dump with `--hex` and those of a binary without. -/
def given (t : FileTree) : Except Error (List Word) :=
  match o.bytes t with
  | .error fault => .error (.transfer fault)
  | .ok bytes =>
    if o.hex then WordDump.parse (Utf8.decode bytes)
    else (wordsOfBytes bytes).mapError .invalidBinary

/-- The listing that a session is for, in colours with `--color` and plain without. -/
def listing (words : List Word) : Listing.Run Sink :=
  write .core (if o.color then .ansi else .plain) words {}

/-- What is reported when the input has been read. -/
def report (words : List Word) : Record where
  level := .info
  message := "read " ++ toString words.length ++ " words from " ++ o.input.getD "-"

/-- All records of a session, whether they are shown or not. -/
def fullLog (words : List Word) : Log :=
  #[o.report words] ++ (o.listing words).log ++ ((o.listing words).failure.map errorRecord).toArray

/-- The records that are shown. -/
def visible (log : Log) : Log :=
  log.filter fun r => requestsFor r.level ≤ o.verbosity.toNat

/-- A session with the options `o` that started with the tree `t`, and whose input holds `words`,
has ended with `outcome` and left the tree `after`. -/
structure Listed (t : FileTree) (words : List Word) (outcome : Outcome) (after : FileTree) :
    Prop where
  accepted : outcome.complaint = none
  status : outcome.status = if (o.listing words).failure.isSome then 1 else 0
  /-- The failure of the listing is the only error that is reported. -/
  errors : (outcome.log.filter fun r => r.level = .error) =
    ((o.listing words).failure.map errorRecord).toArray
  log : outcome.log = o.visible (o.fullLog words)
  /-- Without an output file, standard output gets the listing. -/
  standard : o.output = none → outcome.text = (o.listing words).out.bytes ++ t.output ∧ after = t
  /-- The output file gets the whole listing, whatever it held before, and nothing else changes. -/
  file : ∀ path place, o.output = some path → t.locate path = .ok place →
    after = t.put place (o.listing words).out.bytes ∧ outcome.text = after.output ∧
    (∀ other ≠ place, after.node? other = t.node? other) ∧
    (t.Keeps place → after.node? place = some (.file (o.listing words).out.bytes) ∧
      outcome.text = t.output)

end Options

variable {frontend : Frontend} {t : FileTree} {o : Options}

/-! ## What is shown -/

namespace Options

/-- **The threshold.** A record is shown if there are enough requests for its level. -/
theorem shown_eq (hfrontend : frontend.Lawful) (o : Options) (log : Log) :
    o.shown frontend log = o.visible log := by
  have hlevel : ∀ level : Level,
      level.rank ≤ o.threshold.rank ↔ requestsFor level ≤ o.verbosity.toNat := by
    intro level
    unfold threshold
    rcases o.verbosity.toNat with _ | _ | _ | n
    · cases level <;> decide
    · cases level <;> decide
    · cases level <;> decide
    · cases level <;> simp [Level.rank, requestsFor]
  unfold shown visible
  congr 1
  funext r
  rw [Bool.eq_iff_iff, decide_eq_true_iff, hfrontend.shows, hlevel]

/-- Errors are shown at every verbosity. -/
theorem filter_error_visible (log : Log) :
    ((o.visible log).filter fun r => r.level = .error) = log.filter fun r => r.level = .error := by
  unfold visible
  rw [Array.filter_filter]
  congr 1
  funext r
  cases r.level <;> simp [requestsFor]

@[simp] theorem visible_error (e : Error) : o.visible #[errorRecord e] = #[errorRecord e] := by
  simp [visible, errorRecord, requestsFor]

/-- What is shown at a lower verbosity is found in what is shown at a higher one. -/
theorem visible_visible {louder : UInt8} (h : o.verbosity ≤ louder) (log : Log) :
    o.visible (({ o with verbosity := louder } : Options).visible log) = o.visible log := by
  unfold visible
  rw [Array.filter_filter]
  congr 1
  funext r
  have hle : o.verbosity.toNat ≤ louder.toNat := h
  rw [← Bool.decide_and, decide_eq_decide]
  exact and_iff_left_of_imp fun hshown => Nat.le_trans hshown hle

/-- **The outcome of a session** shows its failure as an error. -/
theorem outcome_eq (hfrontend : frontend.Lawful) (o : Options) (log : Log) (text : ByteArray)
    (failure : Option Error) :
    o.outcome frontend log text failure =
      { status := if failure.isSome then 1 else 0
        text
        log := o.visible (log ++ (failure.map errorRecord).toArray) } := by
  unfold outcome
  cases failure with
  | none => simp [shown_eq hfrontend]
  | some e =>
    have hpush : log.push ⟨.error, e.message⟩ = log ++ ((some e).map errorRecord).toArray := by
      simp [errorRecord]
    dsimp only
    rw [hpush, shown_eq hfrontend]
    rfl

/-- **The only error** of a session is its failure. -/
theorem filter_error_fullLog (o : Options) (words : List Word) :
    ((o.fullLog words).filter fun r => r.level = .error) =
      ((o.listing words).failure.map errorRecord).toArray := by
  have hlibrary : ((o.listing words).log.filter fun r => r.level = .error) = #[] := by
    rw [Array.filter_eq_empty_iff]
    intro r hr
    simpa using level_write hr
  unfold fullLog
  cases (o.listing words).failure with
  | none => simp [report, hlibrary]
  | some e => simp [report, errorRecord, hlibrary]

end Options

/-! ## Sessions on a tree -/

theorem run_read {α : Type} (rest : Except TransferFault (List UInt8) → StateM FileTree α) :
    StateT.run (if o.inputName = "-" then FileTree.host.readInput >>= rest
      else FileTree.host.readFile o.inputName >>= rest) t = StateT.run (rest (o.bytes t)) t := by
  unfold Options.inputName Options.bytes
  cases o.input with
  | none => rfl
  | some path =>
    rw [Option.getD_some]
    dsimp only
    split
    · rfl
    · rfl

theorem bytes_bind_words :
    ((o.bytes t).mapError Error.transfer >>= o.words) = o.given t := by
  unfold Options.given
  cases o.bytes t with
  | error fault => rfl
  | ok bytes => rfl

theorem run_createFile {path : String} {place : Place} (h : t.locate path = .ok place) :
    (FileTree.host.createFile path).run t = pure (.ok (), t.put place .empty) := by
  simp [FileTree.host, h]

theorem run_fillFile {path : String} {place : Place} (h : t.locate path = .ok place)
    (bytes : ByteArray) :
    (FileTree.host.fillFile path bytes).run t = pure (.ok (), t.put place bytes) := by
  simp [FileTree.host, h]

/-- **A session whose input is bad** does nothing. -/
theorem run_session_of_error {e : Error} (h : o.given t = .error e) :
    (o.session frontend FileTree.host).run t = (o.outcome frontend #[] .empty (some e), t) := by
  unfold Options.session
  dsimp only
  rw [run_read, bytes_bind_words, h]
  rfl

/-- **A session that writes to standard output** leaves the tree alone. -/
theorem run_session_standard {words : List Word} (h : o.given t = .ok words)
    (houtput : o.output = none) :
    (o.session frontend FileTree.host).run t =
      (o.outcome frontend (#[o.report words] ++ (o.list frontend words).log)
        (o.list frontend words).out.bytes (o.list frontend words).failure, t) := by
  unfold Options.session
  dsimp only
  rw [run_read, bytes_bind_words, h, houtput]
  rfl

/-- **A session that writes to a file** puts the whole listing there. -/
theorem run_session_file {words : List Word} (h : o.given t = .ok words) {path : String}
    {place : Place} (houtput : o.output = some path) (hlocate : t.locate path = .ok place)
    (hplace : t.node? place ≠ some .directory) :
    (o.session frontend FileTree.host).run t =
      (o.outcome frontend (#[o.report words] ++ (o.list frontend words).log) .empty
          (o.list frontend words).failure,
        t.put place (o.list frontend words).out.bytes) := by
  have hlocate' := FileTree.locate_put hlocate hplace .empty
  unfold Options.session
  dsimp only
  rw [run_read, bytes_bind_words, h, houtput]
  dsimp only
  rw [StateT.run_bind, run_createFile hlocate, pure_bind]
  dsimp only
  rw [StateT.run_bind, run_fillFile hlocate', pure_bind, FileTree.put_put_empty hplace]
  rfl

/-- Without the table of the header, and also if there is no header to show, the listing is all that
is written. -/
theorem Options.list_eq {words : List Word}
    (h : o.header = true → ∃ d, (Module.ofWords words).outcome = .error d) :
    o.list frontend words = o.listing words := by
  unfold list listing
  dsimp only
  cases hheader : o.header with
  | false => rfl
  | true =>
    obtain ⟨d, hd⟩ := h hheader
    rw [hd]
    exact (run_outcome_error Sink.write {} hd).symm

/-! ## Whole runs -/

variable {arguments : List String}

theorem run_eq (hparse : frontend.parse arguments = .ok o) {outcome : Outcome} {after : FileTree}
    (h : (o.session frontend FileTree.host).run t = (outcome, after)) :
    t.runWith frontend arguments =
      ({ outcome with text := outcome.text ++ after.output }, after) := by
  unfold FileTree.runWith CommandLine.run
  rw [hparse]
  dsimp only
  rw [h]

section

variable (hfrontend : frontend.Lawful) (hasks : Asks {} arguments o)

include hfrontend hasks

/-- **Bad input** is reported, and nothing is written. -/
theorem run_of_error {e : Error} (h : o.given t = .error e) :
    t.runWith frontend arguments =
      ({ status := 1, text := t.output, log := #[errorRecord e] }, t) := by
  rw [run_eq (hfrontend.parse hasks) (run_session_of_error h), Options.outcome_eq hfrontend]
  simp

/-- **Other input** is listed. -/
theorem listed_run {words : List Word} (h : o.given t = .ok words)
    (hheader : o.header = true → ∃ d, (Module.ofWords words).outcome = .error d)
    (houtput : ∀ path, o.output = some path →
      ∃ place, t.locate path = .ok place ∧ t.node? place ≠ some .directory) :
    o.Listed t words (t.runWith frontend arguments).1 (t.runWith frontend arguments).2 := by
  have hparse := hfrontend.parse hasks
  have hlist : o.list frontend words = o.listing words := Options.list_eq hheader
  have herrors := (Options.filter_error_visible (o := o) _).trans (o.filter_error_fullLog words)
  cases hpath : o.output with
  | none =>
    rw [run_eq hparse (run_session_standard h hpath), Options.outcome_eq hfrontend, hlist]
    exact {
      accepted := rfl
      status := rfl
      errors := herrors
      log := rfl
      standard := fun _ => ⟨rfl, rfl⟩
      file := by simp [hpath] }
  | some path =>
    obtain ⟨place, hlocate, hplace⟩ := houtput path hpath
    rw [run_eq hparse (run_session_file h hpath hlocate hplace), Options.outcome_eq hfrontend,
      hlist]
    exact {
      accepted := rfl
      status := rfl
      errors := herrors
      log := rfl
      standard := by simp [hpath]
      file := by
        intro path' place' hpath' hlocate'
        obtain rfl : path = path' := Option.some.inj (hpath.symm.trans hpath')
        obtain rfl : place = place' := Except.ok.inj (hlocate.symm.trans hlocate')
        refine ⟨rfl, ByteArray.empty_append, fun other hne => ?_, fun hkeeps => ⟨?_, ?_⟩⟩
        · exact FileTree.node?_put_of_ne hplace hne _
        · exact hkeeps.node?_put _
        · dsimp only
          rw [ByteArray.empty_append, hkeeps.put_eq] }

end

/-- **The verbosity matters to the log only.** -/
theorem Options.Listed.verbosity {words : List Word} {v : UInt8} {outcome outcome' : Outcome}
    {after after' : FileTree} (h : o.Listed t words outcome after)
    (h' : Options.Listed { o with verbosity := v } t words outcome' after')
    (houtput : ∀ path, o.output = some path → ∃ place, t.locate path = .ok place) :
    outcome'.status = outcome.status ∧ outcome'.text = outcome.text ∧ after' = after ∧
      (o.verbosity ≤ v → outcome.log = o.visible outcome'.log) := by
  have hdestination : outcome'.text = outcome.text ∧ after' = after := by
    cases hpath : o.output with
    | none =>
      obtain ⟨htext, hafter⟩ := h.standard hpath
      obtain ⟨htext', hafter'⟩ := h'.standard hpath
      exact ⟨htext'.trans htext.symm, hafter'.trans hafter.symm⟩
    | some path =>
      obtain ⟨place, hlocate⟩ := houtput path hpath
      obtain ⟨hafter, htext, -⟩ := h.file path place hpath hlocate
      obtain ⟨hafter', htext', -⟩ := h'.file path place hpath hlocate
      have heq : after' = after := hafter'.trans hafter.symm
      exact ⟨by rw [htext, htext', heq], heq⟩
  refine ⟨h'.status.trans h.status.symm, hdestination.1, hdestination.2, fun hle => ?_⟩
  rw [h.log, h'.log]
  exact (visible_visible hle (o.fullLog words)).symm

/-- **A session does what the library does**, and never leaves a wrong output. If the input cannot
be read or is malformed, its error is all that there is. Otherwise the destination gets what the
listing of the words comes to, up to a failure if there is one, also when the destination is the
input; and the failure is the only error. The verbosity does not change what a session leaves
behind, a `-v` in front changes nothing else, and what is shown is the part of a longer log that the
verbosity lets through.

The table of the header is not asked for, or there is no header to show. The output file can be
made, and is no directory. -/
theorem session_exact (hfrontend : frontend.Lawful) (hasks : Asks {} arguments o)
    (hheader : o.header = true → ∀ words, o.given t = .ok words →
      ∃ d, (Module.ofWords words).outcome = .error d)
    (houtput : ∀ path, o.output = some path →
      ∃ place, t.locate path = .ok place ∧ t.node? place ≠ some .directory) :
    (∀ e, o.given t = .error e →
      t.runWith frontend arguments =
        ({ status := 1, text := t.output, log := #[errorRecord e] }, t)) ∧
    (∀ words, o.given t = .ok words →
      o.Listed t words (t.runWith frontend arguments).1 (t.runWith frontend arguments).2) ∧
    (∀ n, Asks {} (List.replicate n "-v" ++ arguments) (o.more n)) ∧
    ∀ v arguments', Asks {} arguments' { o with verbosity := v } →
      (t.runWith frontend arguments').1.status = (t.runWith frontend arguments).1.status ∧
      (t.runWith frontend arguments').1.text = (t.runWith frontend arguments).1.text ∧
      (t.runWith frontend arguments').2 = (t.runWith frontend arguments).2 ∧
      (o.verbosity ≤ v → (t.runWith frontend arguments).1.log =
        o.visible (t.runWith frontend arguments').1.log) := by
  refine ⟨fun e h => run_of_error hfrontend hasks h, fun words h => ?_, fun n => ?_,
    fun v arguments' hasks' => ?_⟩
  · exact listed_run hfrontend hasks h (fun hasked => hheader hasked words h) houtput
  · exact hasks.verbose_front n
  · cases h : o.given t with
    | error e =>
      rw [run_of_error hfrontend hasks h, run_of_error hfrontend hasks' h]
      exact ⟨rfl, rfl, rfl, fun _ => (Options.visible_error e).symm⟩
    | ok words =>
      have hheader' := fun hasked => hheader hasked words h
      refine (listed_run hfrontend hasks h hheader' houtput).verbosity
        (listed_run hfrontend hasks' h hheader' houtput) fun path hpath => ?_
      obtain ⟨place, hlocate, -⟩ := houtput path hpath
      exact ⟨place, hlocate⟩

/-- Four sessions. A module with an unknown opcode is listed over itself: the file holds the lines
before the failure then, and the failure is the only error, however much is logged. A word dump is
listed in colours. Three bytes are no words, and no output file is made for them. With one word
there is no header to show. -/
theorem session_exact_input_is_output :
    let words := [magicNumber, 0x00010000, 0, 5, 0, 0x00020011, 1, 0x0001FFFF]
    let comment := "; SPIR-V\n; Version: 65536\n; Generator: Khronos\n; Bound: 5\n; Schema: 0\n"
    let itself := FileTree.ofFiles [] [("in.spv", ⟨(words.flatMap Word.bytes).toArray⟩)]
    let dump := FileTree.ofFiles "7230203 10000, 0 5 0\n0x20013 1\n".toUTF8.data.toList []
    let bytes := FileTree.ofFiles [3, 2, 35] []
    let word := FileTree.ofFiles magicNumber.bytes []
    let listed := itself.run ["-v", "in.spv", "-oin.spv"]
    let louder := itself.run ["-vv", "--output", "in.spv", "--verbose", "in.spv"]
    let coloured := dump.run ["--hex", "--color"]
    let headless := word.run ["--header"]
    (listed.1.status = 1 ∧ listed.1.text = .empty ∧
      listed.1.log = #[⟨.info, "read 8 words from in.spv"⟩,
        ⟨.error, "invalid binary at word 7 (0x0001ffff): invalid opcode '65535'"⟩] ∧
      listed.2.node? ["in.spv", "session", "tmp"] =
        some (.file (comment ++ "OpCapability Shader\n").toUTF8) ∧
      louder.1.status = 1 ∧ louder.2 = listed.2) ∧
    (coloured.1.status = 0 ∧ coloured.1.log = #[] ∧ coloured.2 = dump ∧
      coloured.1.text =
        ("\x1b[1;30m" ++ comment ++ "\x1b[0m\x1b[34m%1\x1b[0m = OpTypeVoid\n").toUTF8) ∧
    bytes.run ["-o", "out.txt", "-"] =
      ({ status := 1
         log := #[⟨.error, "invalid binary at word 0: binary length of 3 bytes is not a whole " ++
          "number of words"⟩] }, bytes) ∧
    headless.1.status = 1 ∧ headless.1.text = .empty ∧ headless.2 = word := by
  intro words comment itself dump bytes word listed louder coloured headless
  refine ⟨?listed, ?coloured, ?bytes, ?headless⟩
  case listed =>
    let o : Options := { input := some "in.spv", output := some "in.spv", verbosity := 1 }
    have hspelling : NamesOutput "in.spv" 0 ["-oin.spv"] :=
      .shortAttached 0 (by decide) (by decide)
    have hvalue : IsValue "in.spv" := ⟨by decide, .inr (by decide)⟩
    have hasks : Asks {} ["-v", "in.spv", "-oin.spv"] o :=
      .verboseShort 0 (.input rfl hvalue (.output rfl hspelling (.nothing _)))
    have hlouder : Asks {} ["-vv", "--output", "in.spv", "--verbose", "in.spv"]
        { o with verbosity := 3 } :=
      .verboseShort 1 (.output rfl (.long hvalue) (.verboseLong (.input rfl hvalue (.nothing _))))
    have hlocate : itself.locate "in.spv" = .ok ["in.spv", "session", "tmp"] := by decide +kernel
    have hnode : itself.node? ["in.spv", "session", "tmp"] =
        some (.file ⟨(words.flatMap Word.bytes).toArray⟩) := rfl
    have hplace : itself.node? ["in.spv", "session", "tmp"] ≠ some .directory := by simp [hnode]
    have hgiven : o.given itself = .ok words := by decide +kernel
    have hbytes : (o.listing words).out.bytes = (comment ++ "OpCapability Shader\n").toUTF8 := by
      decide +kernel
    have hfailure : (o.listing words).failure.isSome = true := by decide +kernel
    have hlog : o.visible (o.fullLog words) = #[⟨.info, "read 8 words from in.spv"⟩,
        ⟨.error, "invalid binary at word 7 (0x0001ffff): invalid opcode '65535'"⟩] := by
      decide +kernel
    obtain ⟨-, hlisted, -, hverbosity⟩ := session_exact Frontend.lawful_standard hasks
      (fun h => absurd h Bool.false_ne_true)
      fun path hpath => ⟨_, Option.some.inj hpath ▸ hlocate, hplace⟩
    obtain ⟨hlouderStatus, -, hlouderAfter, -⟩ := hverbosity 3 _ hlouder
    obtain ⟨-, hstatus, -, hshown, -, hfile⟩ := hlisted words hgiven
    obtain ⟨-, -, -, hkeeps⟩ := hfile "in.spv" _ rfl hlocate
    obtain ⟨hafter, htext⟩ := hkeeps (.inr ⟨_, hnode⟩)
    rw [hfailure] at hstatus
    rw [hlog] at hshown
    rw [hbytes] at hafter
    exact ⟨hstatus, htext, hshown, hafter, hlouderStatus.trans hstatus, hlouderAfter⟩
  case coloured =>
    let o : Options := { hex := true, color := true }
    let words := [magicNumber, 0x00010000, 0, 5, 0, 0x00020013, 1]
    have hasks : Asks {} ["--hex", "--color"] o := .hex rfl (.color rfl (.nothing _))
    have hgiven : o.given dump = .ok words := by decide +kernel
    have hbytes : (o.listing words).out.bytes =
        ("\x1b[1;30m" ++ comment ++ "\x1b[0m\x1b[34m%1\x1b[0m = OpTypeVoid\n").toUTF8 := by
      decide +kernel
    have hfailure : (o.listing words).failure.isSome = false := by decide +kernel
    have hlog : o.visible (o.fullLog words) = #[] := by decide +kernel
    obtain ⟨-, hlisted, -, -⟩ := session_exact (t := dump) Frontend.lawful_standard hasks
      (fun h => absurd h Bool.false_ne_true) (by simp [o])
    obtain ⟨-, hstatus, -, hshown, hstandard, -⟩ := hlisted words hgiven
    obtain ⟨htext, hafter⟩ := hstandard rfl
    rw [hfailure] at hstatus
    rw [hlog] at hshown
    rw [hbytes] at htext
    exact ⟨hstatus, hshown, hafter, htext.trans ByteArray.append_empty⟩
  case bytes =>
    let o : Options := { input := some "-", output := some "out.txt" }
    have hout : IsValue "out.txt" := ⟨by decide, .inr (by decide)⟩
    have hasks : Asks {} ["-o", "out.txt", "-"] o :=
      .output rfl (.short 0 hout) (.input rfl ⟨by decide, .inl rfl⟩ (.nothing _))
    have hlocate : bytes.locate "out.txt" = .ok ["out.txt", "session", "tmp"] := by decide +kernel
    have hgiven : o.given bytes = .error (.invalidBinary ⟨0, none, .partialWord 3⟩) := by
      decide +kernel
    have hnode : bytes.node? ["out.txt", "session", "tmp"] = none := rfl
    have hplace : bytes.node? ["out.txt", "session", "tmp"] ≠ some .directory := by simp [hnode]
    obtain ⟨hbad, -⟩ := session_exact Frontend.lawful_standard hasks
      (fun h => absurd h Bool.false_ne_true)
      fun path hpath => ⟨_, Option.some.inj hpath ▸ hlocate, hplace⟩
    exact hbad _ hgiven
  case headless =>
    let o : Options := { header := true }
    have hasks : Asks {} ["--header"] o := .header rfl (.nothing _)
    have hgiven : o.given word = .ok [magicNumber] := by decide +kernel
    have hheader : (Module.ofWords [magicNumber]).outcome =
        .error ⟨1, none, .truncatedHeader 1⟩ := rfl
    have hfailure : (o.listing [magicNumber]).failure.isSome = true := by decide +kernel
    have hbytes : (o.listing [magicNumber]).out.bytes = .empty := by decide +kernel
    obtain ⟨-, hlisted, -, -⟩ := session_exact (t := word) Frontend.lawful_standard hasks
      (fun _ words hwords => ⟨_, Except.ok.inj (hgiven.symm.trans hwords) ▸ hheader⟩) (by simp [o])
    obtain ⟨-, hstatus, -, -, hstandard, -⟩ := hlisted _ hgiven
    obtain ⟨htext, hafter⟩ := hstandard rfl
    rw [hfailure] at hstatus
    rw [hbytes] at htext
    exact ⟨hstatus, htext, hafter⟩

end CommandLine

end Spirv

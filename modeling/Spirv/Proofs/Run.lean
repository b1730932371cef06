import Mathlib.Algebra.GroupWithZero.Nat
import Spirv.Proofs.Module

/-!
# Runs

What reading from a cursor on comes to, said without the loop that does it.

- `Cursor.Reads`: instructions that are read one after another, and the place that this leads to.
  `reads_iff` says which they are.
- `Cursor.Stops`: a place where nothing is read any more, and why.
- `Cursor.exists_run`: every run reads some instructions and comes to a place where it stops.
  `exists_reads_of_items_eq` and `exists_stops_of_items_eq` find that place from the items.
- `Reads.eq_behind`: the place that a run has come to. `Reads.rest_eq` says what stands there.
- `Cursor.Reads.exists_written`, `Cursor.exists_written_at`: the words of an instruction stand at
  its position in the module.
- `Cursor.Reads.exists_take`: what has been read is what the words up to there are read as.
  `Cursor.Reads.exists_concat` puts another instruction there.
- `Reads.items_eq` and `Reads.last_eq`, `Stops.items_eq` and `Stops.last_eq`: what such a run gives
  and where it ends.
-/

namespace Spirv

open Instruction

variable {g : Grammar}

namespace Cursor

/-! ## One read -/

/-- The same place, behind a failure. -/
def stopped (c : Cursor) : Cursor := { c with failed := true }

/-- A failure leaves the cursor where it is. -/
theorem next_eq_error {c c' : Cursor} {d : Diagnostic} (h : c.next g = some (.error d, c')) :
    c.failed = false ∧ c.rest ≠ [] ∧ c' = c.stopped := by
  have hlive : ¬ (c.failed = true ∨ c.rest = []) := by
    intro hend
    rw [next_eq_none_iff.mpr hend] at h
    contradiction
  rw [not_or, Bool.not_eq_true] at hlive
  refine ⟨hlive.1, hlive.2, ?_⟩
  unfold next at h
  split at h
  · contradiction
  · dsimp only at h
    split at h
    · cases h
      rfl
    · split at h
      · cases h
      · cases h
        rfl

/-- What cannot be read is a failure. -/
theorem next_of_read_eq_error {c : Cursor} {d : Diagnostic} (hlive : c.failed = false)
    (hrest : c.rest ≠ [])
    (h : Instruction.read g c.order c.imported c.position c.rest = .error d) :
    c.next g = some (.error d, c.stopped) := by
  have hempty : c.rest.isEmpty = false := List.isEmpty_eq_false_iff.mpr hrest
  unfold next
  rw [hlive, hempty, Bool.or_self, if_neg Bool.false_ne_true]
  dsimp only
  rw [h]
  rfl

/-- The place at which a run ends does not depend on what has been gathered before. -/
theorem snd_runOnto (acc : Array Item) (c : Cursor) : (c.runOnto g acc).2 = c.last g := by
  rw [last, runOnto, runOnto.eq_def g #[]]
  split
  · rfl
  · next item c' hnext => rw [snd_runOnto (acc.push item) c', snd_runOnto (#[].push item) c']
termination_by c.measure
decreasing_by all_goals exact measure_next (by assumption)

theorem last_eq (c : Cursor) :
    c.last g = match c.next g with
      | none => c
      | some (_, c') => c'.last g := by
  rw [last, runOnto]
  split
  · next hnext => rw [hnext]
  · next item c' hnext =>
    rw [hnext]
    exact snd_runOnto _ c'

/-! ## Instructions one after another -/

/-- `Reads g c is c'`: from `c` on the instructions `is` are read, which leads to `c'`. -/
inductive Reads (g : Grammar) : Cursor → List Instruction → Cursor → Prop where
  | refl (c : Cursor) : Reads g c [] c
  | cons {c c' c'' : Cursor} {i : Instruction} {is : List Instruction}
      (hnext : c.next g = some (.ok i, c')) (h : Reads g c' is c'') : Reads g c (i :: is) c''

theorem Reads.items_eq {c c' : Cursor} {is : List Instruction} (h : Reads g c is c') :
    c.items g = is.map .ok ++ c'.items g := by
  induction h with
  | refl c => rfl
  | cons hnext _ ih => rw [items_of_next hnext, ih, List.map_cons, List.cons_append]

theorem Reads.last_eq {c c' : Cursor} {is : List Instruction} (h : Reads g c is c') :
    c.last g = c'.last g := by
  induction h with
  | refl c => rfl
  | cons hnext _ ih =>
    rw [Cursor.last_eq, hnext]
    exact ih

/-- The place behind instructions that take `count` words. -/
def behind (g : Grammar) (c : Cursor) (is : List Instruction) (count : Nat) : Cursor :=
  { c with
    position := c.position + count
    rest := c.rest.drop count
    imported := is.foldl (selected g) c.imported }

/-- Reading moves the cursor by the words that the instructions declare and selects the sets that
they import. -/
theorem Reads.eq_behind {c c' : Cursor} {is : List Instruction} (h : Reads g c is c') :
    c' = c.behind g is (is.map (·.wordCount)).sum := by
  induction h with
  | refl c => rfl
  | cons hnext _ ih =>
    obtain ⟨-, own, -, -, hi, -, rfl⟩ := next_eq_ok_iff.mp hnext
    rw [ih, hi.length_eq]
    simp only [behind, List.map_cons, List.sum_cons, List.foldl_cons, List.drop_drop,
      Nat.add_assoc]

theorem Reads.position_eq {c c' : Cursor} {is : List Instruction} (h : Reads g c is c') :
    c'.position = c.position + (is.map (·.wordCount)).sum := by
  rw [h.eq_behind]
  rfl

theorem Reads.order_eq {c c' : Cursor} {is : List Instruction} (h : Reads g c is c') :
    c'.order = c.order := by
  rw [h.eq_behind]
  rfl

theorem Reads.failed_eq {c c' : Cursor} {is : List Instruction} (h : Reads g c is c') :
    c'.failed = c.failed := by
  rw [h.eq_behind]
  rfl

theorem Reads.imported_eq {c c' : Cursor} {is : List Instruction} (h : Reads g c is c') :
    c'.imported = is.foldl (selected g) c.imported := by
  rw [h.eq_behind]
  rfl

/-- Reading leads to the words of the module from the position on that it has come to. -/
theorem Reads.rest_eq {words : List Word} {m : Module}
    (hm : (Module.ofWords words).outcome = .ok m) {is : List Instruction} {c : Cursor}
    (h : Reads g (first m) is c) : c.rest = words.drop c.position := by
  obtain ⟨header, hsize, hwords, -⟩ := Module.exists_header hm
  rw [h.eq_behind]
  show m.code.drop _ = words.drop (Header.size + _)
  rw [hwords, ← hsize, List.drop_length_add_append]

theorem Reads.getElem?_rest {words : List Word} {m : Module}
    (hm : (Module.ofWords words).outcome = .ok m) {is : List Instruction} {c : Cursor}
    (h : Reads g (first m) is c) (n : Nat) : c.rest[n]? = words[c.position + n]? := by
  rw [h.rest_eq hm, List.getElem?_drop]

theorem items_eq_nil_iff {c : Cursor} : c.items g = [] ↔ c.next g = none := by
  rw [items_eq]
  rcases c.next g with _ | ⟨item, c'⟩
  · simp
  · simp

theorem items_eq_cons_iff {c : Cursor} {item : Item} {items : List Item} :
    c.items g = item :: items ↔ ∃ c', c.next g = some (item, c') ∧ c'.items g = items := by
  constructor
  · intro h
    rcases hnext : c.next g with _ | ⟨item', c'⟩
    · rw [items_eq_nil_iff.mpr hnext] at h
      contradiction
    · rw [items_of_next hnext] at h
      obtain ⟨rfl, hitems⟩ := List.cons.inj h
      exact ⟨c', rfl, hitems⟩
  · rintro ⟨c', hnext, rfl⟩
    exact items_of_next hnext

/-- The items begin with instructions exactly when these are read one after another. -/
theorem items_eq_append_iff {c : Cursor} {is : List Instruction} {items : List Item} :
    c.items g = is.map .ok ++ items ↔ ∃ c', Reads g c is c' ∧ c'.items g = items := by
  constructor
  · intro h
    induction is generalizing c with
    | nil => exact ⟨c, .refl c, h⟩
    | cons i is ih =>
      obtain ⟨c', hnext, hrest⟩ := items_eq_cons_iff.mp h
      obtain ⟨c'', hreads, hitems⟩ := ih hrest
      exact ⟨c'', .cons hnext hreads, hitems⟩
  · rintro ⟨c', h, rfl⟩
    exact h.items_eq

/-- **The instructions that are read one after another** are those that the words are the words of,
and what follows these words does not matter. -/
theorem reads_iff {c c' : Cursor} (hlive : c.failed = false) {is : List Instruction} :
    Reads g c is c' ↔ ∃ own rest, c.rest.map c.order.fix = own ++ rest ∧
      Code g c.position c.imported is own ∧ c' = c.behind g is own.length := by
  constructor
  · intro h
    induction h with
    | refl c => exact ⟨[], c.rest.map c.order.fix, rfl, .nil _ _, rfl⟩
    | @cons c c' c'' i is hnext _ ih =>
      obtain ⟨-, own, rest, hrest, hi, hposition, rfl⟩ := next_eq_ok_iff.mp hnext
      obtain ⟨owns, rest', hrest', his, rfl⟩ := ih hlive
      rw [List.map_drop, hrest, List.drop_left] at hrest'
      refine ⟨own ++ owns, rest', ?_, .cons hposition hi his, ?_⟩
      · rw [hrest, hrest', List.append_assoc]
      · simp only [behind, List.length_append, List.drop_drop, List.foldl_cons, Nat.add_assoc]
  · rintro ⟨own, rest, hrest, hcode, rfl⟩
    induction is generalizing c own with
    | nil =>
      cases hcode
      exact .refl c
    | cons i is ih =>
      cases hcode with
      | @cons _ _ _ own _ owns hposition hi his =>
        rw [List.append_assoc] at hrest
        refine .cons (next_eq_ok_iff.mpr ⟨hlive, own, _, hrest, hi, hposition, rfl⟩) ?_
        have hdrop : (c.rest.drop own.length).map c.order.fix = owns ++ rest := by
          rw [List.map_drop, hrest, List.drop_left]
        have h := ih (c := { c with
          position := c.position + own.length
          rest := c.rest.drop own.length
          imported := i.selected g c.imported }) hlive owns hdrop his
        simpa only [behind, List.length_append, List.drop_drop, List.foldl_cons,
          Nat.add_assoc] using h

/-! ## The end of a run -/

/-- `Stops g c failure`: nothing is read at `c` any more. This is the end of the words or a place
behind a failure, or else `failure` says what is wrong with the words there. -/
def Stops (g : Grammar) (c : Cursor) (failure : Option Diagnostic) : Prop :=
  c.next g = failure.map fun d => (.error d, c.stopped)

/-- Nothing is read behind a failure. -/
theorem stops_stopped (c : Cursor) : Stops g c.stopped none :=
  next_eq_none_iff.mpr (.inl rfl)

theorem Stops.items_eq {c : Cursor} {failure : Option Diagnostic} (h : Stops g c failure) :
    c.items g = failure.toList.map .error := by
  rw [Cursor.items_eq, h]
  cases failure with
  | none => rfl
  | some d =>
    show .error d :: c.stopped.items g = [.error d]
    rw [Cursor.items_eq, stops_stopped]
    rfl

/-- The items at such a place say whether anything is wrong there. -/
theorem stops_iff {c : Cursor} {failure : Option Diagnostic} :
    Stops g c failure ↔ c.items g = failure.toList.map .error := by
  constructor
  · exact Stops.items_eq
  · intro h
    cases failure with
    | none => exact items_eq_nil_iff.mp h
    | some d =>
      obtain ⟨c', hnext, -⟩ := items_eq_cons_iff.mp h
      obtain ⟨-, -, rfl⟩ := next_eq_error hnext
      exact hnext

theorem Stops.last_eq {c : Cursor} {failure : Option Diagnostic} (h : Stops g c failure) :
    c.last g = if failure.isSome then c.stopped else c := by
  rw [Cursor.last_eq, h]
  cases failure with
  | none => rfl
  | some d =>
    show c.stopped.last g = c.stopped
    rw [Cursor.last_eq, stops_stopped]
    rfl

/-- **Every run** reads some instructions and comes to a place where it stops. -/
theorem exists_run (c : Cursor) : ∃ is c' failure, Reads g c is c' ∧ Stops g c' failure := by
  rcases hnext : c.next g with _ | ⟨d | i, c'⟩
  · exact ⟨[], c, none, .refl c, hnext⟩
  · obtain ⟨-, -, rfl⟩ := next_eq_error hnext
    exact ⟨[], c, some d, .refl c, hnext⟩
  · obtain ⟨is, c'', failure, hreads, hstops⟩ := exists_run c'
    exact ⟨i :: is, c'', failure, .cons hnext hreads, hstops⟩
termination_by c.measure
decreasing_by exact measure_next hnext

/-- The items from any place on are instructions and at most one failure behind them. -/
theorem exists_items_eq (c : Cursor) : ∃ (is : List Instruction) (failure : Option Diagnostic),
    c.items g = is.map .ok ++ failure.toList.map .error := by
  obtain ⟨is, c', failure, hreads, hstops⟩ := exists_run (g := g) c
  exact ⟨is, failure, by rw [hreads.items_eq, hstops.items_eq]⟩

/-- The items say which the instructions are and what has failed behind them. -/
theorem eq_of_map_ok_append_eq {is is' : List Instruction} {failure failure' : Option Diagnostic}
    (h : (is.map .ok ++ failure.toList.map .error : List Item) =
      is'.map .ok ++ failure'.toList.map .error) : is = is' ∧ failure = failure' := by
  induction is generalizing is' with
  | nil =>
    cases is' with
    | nil => cases failure <;> cases failure' <;> simp_all
    | cons i is' => cases failure <;> simp at h
  | cons i is ih =>
    cases is' with
    | nil => cases failure' <;> simp at h
    | cons i' is' =>
      obtain ⟨hi, hrest⟩ := List.cons.inj h
      obtain ⟨rfl, rfl⟩ := ih hrest
      exact ⟨congrArg (· :: is) (Except.ok.inj hi), rfl⟩

/-- What stands before an item are instructions, which lead to the place where it is read. -/
theorem exists_reads_of_items_eq {c : Cursor} {before after : List Item} {item : Item}
    (h : c.items g = before ++ item :: after) :
    ∃ is c', before = is.map .ok ∧ Reads g c is c' ∧ c'.items g = item :: after := by
  induction before generalizing c with
  | nil => exact ⟨[], c, rfl, .refl c, h⟩
  | cons earlier before ih =>
    obtain ⟨c', hnext, hrest⟩ := items_eq_cons_iff.mp h
    cases earlier with
    | error d =>
      -- nothing would stand behind a failure
      obtain ⟨-, -, rfl⟩ := next_eq_error hnext
      rw [items_eq_nil_iff.mpr (stops_stopped c)] at hrest
      exact absurd hrest.symm (List.append_ne_nil_of_right_ne_nil _ (List.cons_ne_nil _ _))
    | ok i =>
      obtain ⟨is, c'', rfl, hreads, hitems⟩ := ih hrest
      exact ⟨i :: is, c'', rfl, .cons hnext hreads, hitems⟩

/-- The instructions among the items have the words of instructions. -/
theorem exists_written_of_mem_items {c : Cursor} {i : Instruction} (h : .ok i ∈ c.items g) :
    ∃ imported own, Written g imported i own := by
  obtain ⟨before, after, hitems⟩ := List.append_of_mem h
  obtain ⟨is, c', -, -, hrest⟩ := exists_reads_of_items_eq hitems
  obtain ⟨c'', hnext, -⟩ := items_eq_cons_iff.mp hrest
  obtain ⟨-, own, -, -, hwritten, -⟩ := next_eq_ok_iff.mp hnext
  exact ⟨_, own, hwritten⟩

/-- An instruction that a run comes to has the words that stand at its position in the module. -/
theorem Reads.exists_written {words : List Word} {m : Module}
    (hm : (Module.ofWords words).outcome = .ok m) {is : List Instruction} {c : Cursor}
    (h : Reads g (first m) is c) {i : Instruction} {after : List Item}
    (hitems : c.items g = .ok i :: after) :
    ∃ own, Written g c.imported i own ∧ i.position = c.position ∧
      own <+: (words.drop i.position).map m.order.fix := by
  obtain ⟨c', hnext, -⟩ := items_eq_cons_iff.mp hitems
  obtain ⟨-, own, rest, hwords, hwritten, hposition, -⟩ := next_eq_ok_iff.mp hnext
  refine ⟨own, hwritten, hposition, rest, ?_⟩
  rw [hposition, ← h.rest_eq hm, ← show c.order = m.order from h.order_eq]
  exact hwords.symm

/-- The instructions of a module have the words that stand at their positions. -/
theorem exists_written_at {words : List Word} {m : Module}
    (hm : (Module.ofWords words).outcome = .ok m) {i : Instruction}
    (h : .ok i ∈ (first m).items g) :
    ∃ imported own, Written g imported i own ∧
      own <+: (words.drop i.position).map m.order.fix := by
  obtain ⟨before, after, hitems⟩ := List.append_of_mem h
  obtain ⟨is, c, -, hreads, hrest⟩ := exists_reads_of_items_eq hitems
  obtain ⟨own, hwritten, -, hown⟩ := hreads.exists_written hm hrest
  exact ⟨_, own, hwritten, hown⟩

/-- A failure among the items is the last of them, and it is that of the place that the instructions
before it lead to. -/
theorem exists_stops_of_items_eq {c : Cursor} {before after : List Item} {d : Diagnostic}
    (h : c.items g = before ++ .error d :: after) :
    ∃ is c', before = is.map .ok ∧ after = [] ∧ Reads g c is c' ∧ Stops g c' (some d) := by
  obtain ⟨is, c', rfl, hreads, hitems⟩ := exists_reads_of_items_eq h
  obtain ⟨c'', hnext, hafter⟩ := items_eq_cons_iff.mp hitems
  obtain ⟨-, -, rfl⟩ := next_eq_error hnext
  rw [items_eq_nil_iff.mpr (stops_stopped c')] at hafter
  exact ⟨is, c', rfl, hafter.symm, hreads, hnext⟩

/-- **The words up to a place that reading comes to** are a module of their own, which is read to
its end as the instructions before that place. -/
theorem Reads.exists_take {words : List Word} {m : Module}
    (hm : (Module.ofWords words).outcome = .ok m) {is : List Instruction} {c : Cursor}
    (h : Reads g (first m) is c) :
    ∃ m', (Module.ofWords (words.take c.position)).outcome = .ok m' ∧ m'.header = m.header ∧
      (first m').items g = is.map .ok := by
  obtain ⟨own, rest, hrest, his, rfl⟩ := (reads_iff rfl).mp h
  have hown : (m.code.take own.length).map m.order.fix = own := by
    rw [List.map_take, show m.code.map m.order.fix = own ++ rest from hrest, List.take_left]
  refine ⟨{ m with code := m.code.take own.length }, Module.ofWords_take hm _, rfl, ?_⟩
  refine (items_eq_map_ok_iff rfl).mpr ?_
  show Code g Header.size none is ((m.code.take own.length).map m.order.fix)
  rw [hown]
  exact his

/-- **Another instruction at a place that reading comes to**: the words up to there and its own are
a module, which is read as the instructions before that place and this one. -/
theorem Reads.exists_concat {words : List Word} {m : Module}
    (hm : (Module.ofWords words).outcome = .ok m) {is : List Instruction} {c : Cursor}
    (h : Reads g (first m) is c) {i : Instruction} {own : List Word}
    (hi : Written g c.imported i own) (hposition : i.position = c.position) :
    ∃ m', (Module.ofWords (words.take c.position ++ own.map m.order.fix)).outcome = .ok m' ∧
      m'.header = m.header ∧ m'.order = m.order ∧
      (first m').items g = is.map .ok ++ [Except.ok i] := by
  obtain ⟨header, hsize, hwords, hopen⟩ := Module.exists_header hm
  obtain ⟨earlier, rest, hrest, his, rfl⟩ := (reads_iff rfl).mp h
  let m' : Module := { m with code := m.code.take earlier.length ++ own.map m.order.fix }
  have hcode : m'.code.map m.order.fix = earlier ++ own := by
    have hown : (own.map m.order.fix).map m.order.fix = own := by
      simp [Function.comp_def]
    show (m.code.take earlier.length ++ own.map m.order.fix).map m.order.fix = _
    rw [List.map_append, List.map_take, show m.code.map m.order.fix = earlier ++ rest from hrest,
      List.take_left, hown]
  have hreads : Reads g (first m') is ((first m').behind g is earlier.length) :=
    (reads_iff rfl).mpr ⟨earlier, own, hcode, his, rfl⟩
  have hthere : (m'.code.drop earlier.length).map m.order.fix = own ++ [] := by
    rw [List.map_drop, hcode, List.drop_left, List.append_nil]
  have hend : (m'.code.drop earlier.length).drop own.length = [] := by
    rw [← List.map_eq_nil_iff (f := m.order.fix), List.map_drop, hthere, List.append_nil,
      List.drop_length]
  refine ⟨m', ?_, rfl, rfl, ?_⟩
  · have htake : words.take (Header.size + earlier.length) =
        header ++ m.code.take earlier.length := by
      rw [← hsize, hwords, List.take_length_add_append]
    show (Module.ofWords (words.take (Header.size + earlier.length) ++ _)).outcome = _
    rw [htake, List.append_assoc]
    exact hopen _
  · have hnext := next_eq_ok_iff (c := (first m').behind g is earlier.length).mpr
      ⟨rfl, own, [], hthere, hi, hposition, rfl⟩
    rw [hreads.items_eq, items_of_next hnext, items_eq_nil_iff.mpr]
    exact next_eq_none_iff.mpr (.inr hend)

end Cursor

end Spirv

import Mathlib.Tactic.SplitIfs
import Spirv.CommandLine.FileTree

/-!
# Writing to file trees

What is found in a tree after bytes were written to one of its places.

- `FileTree.Keeps`: a place that keeps what is written to it. `Keeps.node?_put` says what it holds
  then, and `FileTree.node?_put_of_ne` that all other places are as before.
- `FileTree.put_put_empty`: emptying a place first makes no difference.
- `FileTree.locate_put`: the path that led to a place leads there after writing as well.
-/

namespace Spirv.CommandLine.FileTree

variable {t : FileTree} {place : Place}

/-! ## Places after writing -/

theorem lookup_filter_ne {α β : Type} [BEq α] [LawfulBEq α] (l : List (α × β)) {a b : α}
    (h : b ≠ a) : (l.filter (·.1 != a)).lookup b = l.lookup b := by
  induction l with
  | nil => rfl
  | cons entry l ih =>
    obtain ⟨key, value⟩ := entry
    by_cases hkey : key = a
    · subst hkey
      rw [List.filter_cons_of_neg (by simp), ih, List.lookup_cons, beq_false_of_ne h]
    · rw [List.filter_cons_of_pos (by simpa using hkey), List.lookup_cons, List.lookup_cons, ih]

/-- A place that keeps what is written to it: a file, or a place where nothing stands yet. -/
def Keeps (t : FileTree) (place : Place) : Prop :=
  t.node? place = none ∨ ∃ old, t.node? place = some (.file old)

theorem Keeps.put_eq (h : t.Keeps place) (bytes : ByteArray) : t.put place bytes =
    { t with nodes := (place, .file bytes) :: t.nodes.filter (·.1 != place) } := by
  unfold put
  rcases h with h | ⟨old, h⟩ <;> rw [h]

theorem put_standardOutput (h : t.node? place = some .standardOutput) (bytes : ByteArray) :
    t.put place bytes = { t with output := t.output ++ bytes } := by
  unfold put
  rw [h]

/-- Devices keep nothing: the one of standard output takes the bytes and the others drop them. -/
theorem put_of_not_keeps (hplace : t.node? place ≠ some .directory) (h : ¬ t.Keeps place) :
    t.node? place = some .standardOutput ∨ ∀ bytes, t.put place bytes = t := by
  unfold Keeps at h
  unfold put
  rcases hnode : t.node? place with _ | _ | old | _ | _ | _
  · exact absurd (.inl hnode) h
  · exact absurd hnode hplace
  · exact absurd (.inr ⟨old, hnode⟩) h
  · exact .inr fun _ => rfl
  · exact .inr fun _ => rfl
  · exact .inl rfl

theorem nodes_put_of_not_keeps (hplace : t.node? place ≠ some .directory) (h : ¬ t.Keeps place)
    (bytes : ByteArray) : (t.put place bytes).nodes = t.nodes := by
  rcases put_of_not_keeps hplace h with hout | hdrop
  · rw [put_standardOutput hout]
  · rw [hdrop]

theorem node?_of_nodes_eq {t t' : FileTree} (h : t'.nodes = t.nodes) (place : Place) :
    t'.node? place = t.node? place := by
  unfold node?
  rw [h]

/-- **A file that was written** holds the bytes. -/
theorem Keeps.node?_put (h : t.Keeps place) (bytes : ByteArray) :
    (t.put place bytes).node? place = some (.file bytes) := by
  have hroot : place ≠ [] := by
    rintro rfl
    rcases h with h | ⟨old, h⟩ <;> simp [node?] at h
  rw [h.put_eq]
  unfold node?
  split
  · contradiction
  · exact List.lookup_cons_self

/-- **Other places** are as before. -/
theorem node?_put_of_ne (hplace : t.node? place ≠ some .directory) {other : Place}
    (hne : other ≠ place) (bytes : ByteArray) :
    (t.put place bytes).node? other = t.node? other := by
  by_cases h : t.Keeps place
  · rw [h.put_eq]
    unfold node?
    split
    · rfl
    · rw [List.lookup_cons, beq_false_of_ne hne]
      exact lookup_filter_ne t.nodes hne
  · exact node?_of_nodes_eq (nodes_put_of_not_keeps hplace h bytes) other

/-- The place itself exists then and is no directory. -/
theorem node?_put_self (hplace : t.node? place ≠ some .directory) (bytes : ByteArray) :
    ((t.put place bytes).node? place).isSome = true ∧
      (t.put place bytes).node? place ≠ some .directory := by
  by_cases h : t.Keeps place
  · rw [h.node?_put]
    exact ⟨rfl, nofun⟩
  · rw [node?_of_nodes_eq (nodes_put_of_not_keeps hplace h bytes)]
    exact ⟨Option.isSome_iff_ne_none.mpr fun hnone => h (.inl hnone), hplace⟩

/-- What was a directory is one. -/
theorem node?_put_directory (hplace : t.node? place ≠ some .directory) {other : Place}
    (hother : t.node? other = some .directory) (bytes : ByteArray) :
    (t.put place bytes).node? other = some .directory := by
  have hne : other ≠ place := by
    rintro rfl
    exact hplace hother
  rw [node?_put_of_ne hplace hne, hother]

/-- What existed still does. -/
theorem isSome_node?_put (hplace : t.node? place ≠ some .directory) {other : Place}
    (hother : (t.node? other).isSome = true) (bytes : ByteArray) :
    ((t.put place bytes).node? other).isSome = true := by
  by_cases hne : other = place
  · rw [hne]
    exact (node?_put_self hplace bytes).1
  · rwa [node?_put_of_ne hplace hne]

/-- **Emptying a place first** makes no difference. -/
theorem put_put_empty (hplace : t.node? place ≠ some .directory) (bytes : ByteArray) :
    (t.put place .empty).put place bytes = t.put place bytes := by
  by_cases h : t.Keeps place
  · have hempty : (t.put place .empty).Keeps place := .inr ⟨_, h.node?_put .empty⟩
    rw [hempty.put_eq, h.put_eq, h.put_eq]
    simp
  · rcases put_of_not_keeps hplace h with hout | hdrop
    · have hout' : (t.put place .empty).node? place = some .standardOutput := by
        rw [node?_of_nodes_eq (nodes_put_of_not_keeps hplace h .empty), hout]
      rw [put_standardOutput hout', put_standardOutput hout, put_standardOutput hout]
      simp
    · rw [hdrop .empty]

@[simp] theorem working_put (t : FileTree) (place : Place) (bytes : ByteArray) :
    (t.put place bytes).working = t.working := by
  unfold put
  split <;> rfl

/-! ## Paths after writing -/

theorem enter_put (hplace : t.node? place ≠ some .directory) {start stop : Place} {name : String}
    (h : t.enter start name = .ok stop) (bytes : ByteArray) :
    (t.put place bytes).enter start name = .ok stop := by
  unfold enter at h ⊢
  split at h
  · contradiction
  · next hstart =>
    rw [node?_put_directory hplace hstart]
    dsimp only
    by_cases hnext : (t.node? (name :: start)).isSome = true
    · rw [isSome_node?_put hplace hnext]
      rwa [hnext] at h
    · rw [if_neg hnext] at h
      split_ifs at h ⊢ <;> exact h
  · contradiction

/-- Names that lead somewhere lead there after writing as well. -/
theorem walk_put (hplace : t.node? place ≠ some .directory) {names : List String} {stop : Place}
    (h : t.walk names = .ok stop) (bytes : ByteArray) :
    (t.put place bytes).walk names = .ok stop := by
  unfold walk at h ⊢
  rw [working_put]
  generalize (if names.head? = some "" then [] else t.working) = start at h ⊢
  induction names generalizing start with
  | nil => exact h
  | cons name names ih =>
    rw [List.foldlM_cons] at h ⊢
    cases hname : t.enter start name with
    | error fault =>
      rw [hname] at h
      contradiction
    | ok next =>
      rw [hname] at h
      rw [enter_put hplace hname]
      exact ih _ h

/-- A name that was new leads to what was written there, unless its directory does not exist. -/
theorem enter_put_new {directory : Place} {name : String}
    (h : t.enter directory name = .error .noSuchFile)
    (hplace : t.node? (name :: directory) ≠ some .directory) (bytes : ByteArray) :
    (t.put (name :: directory) bytes).enter directory name = .error .noSuchFile ∨
      (t.put (name :: directory) bytes).enter directory name = .ok (name :: directory) := by
  have hne : directory ≠ name :: directory := fun heq => absurd (congrArg List.length heq) (by simp)
  unfold enter at h ⊢
  rw [node?_put_of_ne hplace hne, (node?_put_self hplace bytes).1]
  split at h
  · exact .inl rfl
  · refine .inr ?_
    split_ifs at h ⊢ with hhere hup hlong hself
    · cases h
    · rfl
    · exact absurd rfl hself
  · cases h

/-- **A path leads to the same place** after that place was written. -/
theorem locate_put {path : String} (h : t.locate path = .ok place)
    (hplace : t.node? place ≠ some .directory) (bytes : ByteArray) :
    (t.put place bytes).locate path = .ok place := by
  have hself := (node?_put_self hplace bytes).2
  unfold locate at h ⊢
  cases hnames : checkedPieces path with
  | error fault =>
    rw [hnames] at h
    contradiction
  | ok names =>
    rw [hnames] at h
    dsimp only [bind, Except.bind] at h ⊢
    cases hbackwards : names.reverse.dropWhile String.isEmpty with
    | nil =>
      simp only [hbackwards] at h
      contradiction
    | cons name above =>
      simp only [hbackwards] at h ⊢
      cases hwalk : t.walk above.reverse with
      | error fault =>
        rw [hwalk] at h
        contradiction
      | ok directory =>
        rw [hwalk] at h
        rw [walk_put hplace hwalk]
        dsimp only at h ⊢
        cases hslash : names.reverse.head?.any String.isEmpty with
        | true =>
          rw [hslash] at h
          split at h <;> contradiction
        | false =>
          rw [hslash] at h
          cases henter : t.enter directory name with
          | ok stop =>
            rw [henter] at h
            rw [enter_put hplace henter]
            dsimp only at h ⊢
            split at h
            · contradiction
            · cases h
              split
              · next hdirectory => exact absurd hdirectory hself
              · rfl
          | error fault =>
            rw [henter] at h
            cases fault with
            | noSuchFile =>
              cases h
              rcases enter_put_new henter hplace bytes with hnew | hnew
              · rw [hnew]
              · rw [hnew]
                dsimp only
                split
                · next hdirectory => exact absurd hdirectory hself
                · rfl
            | _ => contradiction

end Spirv.CommandLine.FileTree

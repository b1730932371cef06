import Spirv.CommandLine.Frontend

/-!
# What a command line asks for

The syntax of command lines, apart from any program that reads them.

- `Asks`: the options that arguments ask for, in every spelling and order. `Asks.more` and
  `Asks.verbose_front` say that `-v` changes nothing but the verbosity.
- `Frontend.Lawful`: what a session relies on in a frontend.
- `Options.parseOnto_cons`: reading takes one argument after the other. From it
  `Options.parseOnto_of_asks`, by induction on what is asked for.
- `Frontend.lawful_standard`: the frontend that the program is built with is lawful.
-/

namespace Spirv.CommandLine

/-! ## Options with more verbosity -/

namespace Options

variable (o : Options) (m n : Nat)

theorem toNat_verbosity_more :
    (o.more n).verbosity.toNat = min (o.verbosity.toNat + n) 255 :=
  UInt8.toNat_ofNat_of_lt' (Nat.lt_of_le_of_lt (Nat.min_le_right _ _) (by decide))

@[simp] theorem more_zero : o.more 0 = o := by
  have hle : o.verbosity.toNat ≤ 255 := Nat.le_of_lt_succ o.verbosity.toNat_lt
  unfold more
  rw [Nat.add_zero, Nat.min_eq_left hle, UInt8.ofNat_toNat]

theorem more_more : (o.more m).more n = o.more (m + n) := by
  have hsum : min (min (o.verbosity.toNat + m) 255 + n) 255 =
      min (o.verbosity.toNat + (m + n)) 255 := by omega
  rw [more, toNat_verbosity_more, hsum]
  rfl

theorem more_comm : (o.more m).more n = (o.more n).more m := by
  rw [more_more, more_more, Nat.add_comm]

end Options

/-! ## Syntax -/

/-- A text that stands for itself. What starts with a dash is an option, unless it is the dash
alone. -/
def IsValue (text : String) : Prop := text ≠ "" ∧ (text = "-" ∨ text.toList.head? ≠ some '-')

/-- The letter of `--verbose`, `n` times. -/
def requests (n : Nat) : String := .ofList (List.replicate n 'v')

/-- `NamesOutput path n arguments`: the arguments are a spelling of `--output` with the value
`path`. Its short form may stand behind `n` requests for log in one argument. -/
inductive NamesOutput (path : String) : Nat → List String → Prop where
  | long (hpath : IsValue path) : NamesOutput path 0 ["--output", path]
  | longAttached (hpath : path ≠ "") : NamesOutput path 0 ["--output=" ++ path]
  | short (n : Nat) (hpath : IsValue path) : NamesOutput path n ["-" ++ requests n ++ "o", path]
  | shortEquals (n : Nat) (hpath : path ≠ "") :
      NamesOutput path n ["-" ++ requests n ++ "o=" ++ path]
  | shortAttached (n : Nat) (hpath : path ≠ "") (hequals : path.toList.head? ≠ some '=') :
      NamesOutput path n ["-" ++ requests n ++ "o" ++ path]

/-- `Asks o arguments o'`: the arguments turn options that already were asked for, `o`, into `o'`.
There is at most one input and at most one output, no other option than `--verbose` is repeated, and
behind `--` there is no option. -/
inductive Asks : Options → List String → Options → Prop where
  | nothing (o : Options) : Asks o [] o
  | input {o o' : Options} {path : String} {rest : List String} (hfree : o.input = none)
      (hpath : IsValue path) (h : Asks { o with input := some path } rest o') :
      Asks o (path :: rest) o'
  | output {o o' : Options} {path : String} {n : Nat} {spelling rest : List String}
      (hfree : o.output = none) (hspelling : NamesOutput path n spelling)
      (h : Asks (({ o with output := some path } : Options).more n) rest o') :
      Asks o (spelling ++ rest) o'
  | color {o o' : Options} {rest : List String} (hfree : o.color = false)
      (h : Asks { o with color := true } rest o') : Asks o ("--color" :: rest) o'
  | hex {o o' : Options} {rest : List String} (hfree : o.hex = false)
      (h : Asks { o with hex := true } rest o') : Asks o ("--hex" :: rest) o'
  | header {o o' : Options} {rest : List String} (hfree : o.header = false)
      (h : Asks { o with header := true } rest o') : Asks o ("--header" :: rest) o'
  | verboseLong {o o' : Options} {rest : List String} (h : Asks (o.more 1) rest o') :
      Asks o ("--verbose" :: rest) o'
  | verboseShort {o o' : Options} {rest : List String} (n : Nat)
      (h : Asks (o.more (n + 1)) rest o') : Asks o (("-" ++ requests (n + 1)) :: rest) o'
  | close (o : Options) : Asks o ["--"] o
  | closeInput {o : Options} {path : String} (hfree : o.input = none) (hpath : path ≠ "") :
      Asks o ["--", path] { o with input := some path }

/-- **No argument depends on the verbosity.** -/
theorem Asks.more {o o' : Options} {arguments : List String} (h : Asks o arguments o') (n : Nat) :
    Asks (o.more n) arguments (o'.more n) := by
  induction h with
  | nothing o => exact .nothing _
  | input hfree hpath _ ih => exact .input hfree hpath ih
  | output hfree hspelling _ ih =>
    rw [Options.more_comm] at ih
    exact .output hfree hspelling ih
  | color hfree _ ih => exact .color hfree ih
  | hex hfree _ ih => exact .hex hfree ih
  | header hfree _ ih => exact .header hfree ih
  | verboseLong _ ih =>
    rw [Options.more_comm] at ih
    exact .verboseLong ih
  | verboseShort m _ ih =>
    rw [Options.more_comm] at ih
    exact .verboseShort m ih
  | close o => exact .close _
  | closeInput hfree hpath => exact .closeInput hfree hpath

/-- **A `-v` in front** changes the verbosity and nothing else. -/
theorem Asks.verbose_front {o o' : Options} {arguments : List String} (h : Asks o arguments o')
    (n : Nat) : Asks o (List.replicate n "-v" ++ arguments) (o'.more n) := by
  induction n generalizing o o' with
  | zero => rwa [Options.more_zero, List.replicate_zero, List.nil_append]
  | succ n ih =>
    have hrest := ih (h.more 1)
    rw [Options.more_more, Nat.add_comm 1 n] at hrest
    -- `-v` is a dash with one request behind it
    exact .verboseShort 0 hrest

/-! ## Frontends -/

/-- What a session relies on in a frontend: a command line is taken for what it asks for, and a
record is shown if it matters at least as much as the threshold. -/
structure Frontend.Lawful (frontend : Frontend) : Prop where
  parse {arguments : List String} {o : Options} (h : Asks {} arguments o) :
    frontend.parse arguments = .ok o
  shows (threshold level : Level) :
    frontend.shows threshold level = true ↔ level.rank ≤ threshold.rank

/-! ## The standard frontend -/

theorem IsValue.ofArgument {text : String} (h : IsValue text) :
    Token.ofArgument text = .plain text := by
  obtain ⟨-, rfl | hdash⟩ := h
  · rfl
  · unfold Token.ofArgument
    split
    · next htext => simp [htext] at hdash
    · next htext => simp [htext] at hdash
    · next htext => simp [htext] at hdash
    · rfl

/-- A dash and letters, the first of which is no dash. -/
theorem ofArgument_short {argument : String} {c : Char} {letters : List Char}
    (h : argument.toList = '-' :: c :: letters) (hc : c ≠ '-') :
    Token.ofArgument argument = .short (c :: letters) := by
  unfold Token.ofArgument
  rw [h]
  split
  · next heq => simp [hc] at heq
  · next heq => simp [hc] at heq
  · next heq =>
    cases heq
    rfl
  · next hshort => exact absurd rfl (hshort c letters)

theorem ofArgument_requests (n : Nat) :
    Token.ofArgument ("-" ++ requests (n + 1)) = .short (List.replicate (n + 1) 'v') := by
  have hletters : ("-" ++ requests (n + 1)).toList = '-' :: 'v' :: List.replicate n 'v' := by
    simp [requests, List.replicate_succ]
  exact ofArgument_short hletters (by decide)

theorem ofArgument_requests_output (n : Nat) (behind : String) :
    Token.ofArgument ("-" ++ requests n ++ "o" ++ behind) =
      .short (List.replicate n 'v' ++ 'o' :: behind.toList) := by
  have hletters : ("-" ++ requests n ++ "o" ++ behind).toList =
      '-' :: (List.replicate n 'v' ++ 'o' :: behind.toList) := by
    simp [requests]
  cases n with
  | zero => exact ofArgument_short hletters (by decide)
  | succ n => exact ofArgument_short hletters (by decide)

theorem ofArgument_output (path : String) :
    Token.ofArgument ("--output=" ++ path) = .long "output" (some path) := by
  have hletters : ("--output=" ++ path).toList =
      '-' :: '-' :: 'o' :: 'u' :: 't' :: 'p' :: 'u' :: 't' :: '=' :: path.toList := by
    simp
  unfold Token.ofArgument
  rw [hletters]
  simp

namespace Options

variable {o o' : Options} {path : String}

theorem setInput_eq (hfree : o.input = none) (hpath : path ≠ "") (expected : Expected) :
    (o.setInput path).map (·, expected) = .ok ({ o with input := some path }, expected) := by
  unfold setInput
  rw [if_neg (by simp [hfree]), if_neg (by simpa using hpath)]
  rfl

theorem setOutput_eq (hfree : o.output = none) (hpath : path ≠ "") (expected : Expected) :
    (o.setOutput path).map (·, expected) = .ok ({ o with output := some path }, expected) := by
  unfold setOutput
  rw [if_neg (by simp [hfree]), if_neg (by simpa using hpath)]
  rfl

theorem setShort_requests (o : Options) (n : Nat) (letters : List Char) :
    o.setShort (List.replicate n 'v' ++ letters) = (o.more n).setShort letters := by
  induction n generalizing o with
  | zero => rw [more_zero, List.replicate_zero, List.nil_append]
  | succ n ih =>
    rw [List.replicate_succ, List.cons_append, setShort, ih, more_more, Nat.add_comm]

theorem setShort_equals (hfree : o.output = none) (hpath : path ≠ "") :
    o.setShort ('o' :: '=' :: path.toList) = .ok ({ o with output := some path }, .anything) := by
  show (o.setOutput (String.ofList path.toList)).map (·, Expected.anything) = _
  rw [String.ofList_toList]
  exact setOutput_eq hfree hpath _

theorem setShort_attached (hfree : o.output = none) (hpath : path ≠ "")
    (hequals : path.toList.head? ≠ some '=') :
    o.setShort ('o' :: path.toList) = .ok ({ o with output := some path }, .anything) := by
  have hletters : path.toList ≠ [] := by simpa using hpath
  rw [setShort, String.ofList_toList]
  · exact setOutput_eq hfree hpath _
  · exact hletters
  · intro value hvalue
    simp [hvalue] at hequals

/-- **One argument** is taken for its shape, and the others behind it. -/
theorem parseOnto_cons {argument : String} {token : Token}
    (htoken : Token.ofArgument argument = token) {expected expected' : Expected}
    (htake : o.take expected argument token = .ok (o', expected')) (rest : List String) :
    o.parseOnto expected (argument :: rest) = o'.parseOnto expected' rest := by
  show (o.take expected argument (Token.ofArgument argument) >>= fun next =>
    next.1.parseOnto next.2 rest) = _
  rw [htoken, htake]
  rfl

/-- A flag. -/
theorem parseOnto_flag {argument : String} (name : String)
    (htoken : Token.ofArgument argument = .long name none) (hname : name ≠ "output")
    (hflag : o.setFlag name = .ok o') (rest : List String) :
    o.parseOnto .anything (argument :: rest) = o'.parseOnto .anything rest := by
  refine parseOnto_cons htoken ?_ rest
  show (if name = "output" then _ else (o.setFlag name).map (·, Expected.anything)) = _
  rw [if_neg hname, hflag]
  rfl

/-- Letters behind a dash. -/
theorem parseOnto_letters {argument : String} {letters : List Char} {expected : Expected}
    (htoken : Token.ofArgument argument = .short letters)
    (hletters : o.setShort letters = .ok (o', expected)) (rest : List String) :
    o.parseOnto .anything (argument :: rest) = o'.parseOnto expected rest := by
  refine parseOnto_cons htoken ?_ rest
  exact hletters

/-- **Every spelling** of an output is taken for it. -/
theorem parseOnto_output {n : Nat} {spelling : List String} (hfree : o.output = none)
    (h : NamesOutput path n spelling) (rest : List String) :
    o.parseOnto .anything (spelling ++ rest) =
      (({ o with output := some path } : Options).more n).parseOnto .anything rest := by
  have hfree' : (o.more n).output = none := hfree
  have hvalue : ∀ {o : Options}, o.output = none → IsValue path →
      o.parseOnto .outputValue (path :: rest) =
        ({ o with output := some path } : Options).parseOnto .anything rest := by
    intro o hfree hpath
    refine parseOnto_cons hpath.ofArgument ?_ rest
    exact setOutput_eq hfree hpath.1 _
  cases h with
  | long hpath =>
    rw [more_zero]
    exact hvalue hfree hpath
  | longAttached hpath =>
    rw [more_zero, List.singleton_append]
    refine parseOnto_cons (ofArgument_output path) ?_ rest
    exact setOutput_eq hfree hpath _
  | short n hpath =>
    have htoken := ofArgument_requests_output n ""
    rw [String.append_empty] at htoken
    exact (parseOnto_letters htoken (setShort_requests o n ['o']) _).trans (hvalue hfree' hpath)
  | shortEquals n hpath =>
    have hargument : "-" ++ requests n ++ "o=" ++ path =
        "-" ++ requests n ++ "o" ++ ("=" ++ path) := by
      simp only [String.append_assoc, ← String.toList_inj, String.toList_append]
      rfl
    have htoken := ofArgument_requests_output n ("=" ++ path)
    rw [String.toList_append] at htoken
    rw [List.singleton_append, hargument]
    have hletters := (setShort_requests o n _).trans (setShort_equals hfree' hpath)
    exact parseOnto_letters htoken hletters rest
  | shortAttached n hpath hequals =>
    rw [List.singleton_append]
    have hletters := (setShort_requests o n _).trans (setShort_attached hfree' hpath hequals)
    exact parseOnto_letters (ofArgument_requests_output n path) hletters rest

/-- **A command line is taken for what it asks for**, whatever was asked for before. -/
theorem parseOnto_of_asks {arguments : List String} (h : Asks o arguments o') :
    o.parseOnto .anything arguments = .ok o' := by
  induction h with
  | nothing o => rfl
  | @input o o' path rest hfree hpath _ ih =>
    refine (parseOnto_cons hpath.ofArgument ?_ rest).trans ih
    exact setInput_eq hfree hpath.1 _
  | output hfree hspelling _ ih => exact (parseOnto_output hfree hspelling _).trans ih
  | color hfree _ ih =>
    exact (parseOnto_flag "color" rfl (by decide) (by simp [setFlag, hfree]) _).trans ih
  | hex hfree _ ih =>
    exact (parseOnto_flag "hex" rfl (by decide) (by simp [setFlag, hfree]) _).trans ih
  | header hfree _ ih =>
    exact (parseOnto_flag "header" rfl (by decide) (by simp [setFlag, hfree]) _).trans ih
  | verboseLong _ ih => exact (parseOnto_flag "verbose" rfl (by decide) rfl _).trans ih
  | @verboseShort o o' rest n _ ih =>
    have hletters : o.setShort (List.replicate (n + 1) 'v') = .ok (o.more (n + 1), .anything) := by
      rw [← List.append_nil (List.replicate _ _), setShort_requests]
      rfl
    exact (parseOnto_letters (ofArgument_requests n) hletters _).trans ih
  | close o => rfl
  | @closeInput o path hfree hpath =>
    have hinput := setInput_eq hfree hpath .input
    show (o.setInput path).map (·, Expected.input) >>= _ = _
    rw [hinput]
    rfl

end Options

/-- **The standard frontend** is lawful. -/
theorem Frontend.lawful_standard : Frontend.standard.Lawful where
  parse h := by
    show (Options.parse _).mapError Interruption.reply = _
    rw [Options.parse, Options.parseOnto_of_asks h]
    rfl
  shows threshold level := decide_eq_true_iff

end Spirv.CommandLine

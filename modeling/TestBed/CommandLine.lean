import TestBed.Setup

/-!
# What the command line admits

`tb_parse` with all that it does to its arguments: it exits, it aborts, it uses an argument that is not
there, or it calls `tb_start`. The number of arguments is only tied to the type for the single client, the
results of `sscanf` are not looked at, and neither is the sign of what they store; so the configurations
that it starts are the runnable ones exactly for the arguments of `RunnableArgs`.
-/

namespace TestBed.Setup

open CInt

/-- How `tb_parse` ends without calling `tb_start`. The last is the use of an argument past the last one
as a string. -/
inductive Stop
  | exits
  | aborts
  | usesMissing (i : Nat)
  deriving DecidableEq, Repr

def arg (argv : List String) (i : Nat) : Except Stop String :=
  match argv[i]? with
  | some s => .ok s
  | none => .error (.usesMissing i)

def orExit {α : Type} : Option α → Except Stop α
  | some a => .ok a
  | none => .error .exits

/-- What a client sends. -/
def loadFile (argv : List String) (l : TbListener) : Except Stop TbListener := do
  let fileType ← arg argv 6
  if fileType = "size" then
    let size := (scanInt (← arg argv 7)).getD l.fileSize
    .ok { l with fileSize := asInt (size * 1024) }
  else if fileType = "file" then .ok { l with filename := some (← arg argv 7) }
  else .error .aborts

/-- `tb_parse` once it has created the listener. -/
def startListener (argv : List String) (initialised : Bool) (l : TbListener) :
    Except Stop (TbListener × Bool) := do
  let l ← if isClient l.eType then loadFile argv l else .ok l
  .ok ({ parseBufsize l with dExit := true, fExit := .tbExit, fAbort := .tbAbort }, initialised)

/-- `tb_parse`, as the listener that it hands to `tb_start`, and whether `sscanf` has stored the buffer
size; `junk` is what the variable holds otherwise. -/
def tbParseOutcome (junk : Int) (argv : List String) : Except Stop (TbListener × Bool) :=
  if argv.length < 6 ∨ argv.length > 8 then .error .exits
  else do
    let type ← orExit (parseType argv.length (← arg argv 1))
    let protocol ← orExit (parseProtocol (← arg argv 4))
    let address ← arg argv 2
    let port ← arg argv 3
    let bufsize := scanInt (← arg argv 5)
    let l ← orExit (tbCreateListener type address port protocol (bufsize.getD junk))
    startListener argv bufsize.isSome l

/-- No argument is missing, and what is started has a packet size that was given or a default, and a
client has something to send. -/
def Runnable : Except Stop (TbListener × Bool) → Prop
  | .error (.usesMissing _) => False
  | .error _ => True
  | .ok (l, initialised) => initialised = true ∧ 1 ≤ l.bufsize ∧
      (isClient l.eType = true → l.filename ≠ none ∨ 1 ≤ l.fileSize)

/-- The type of endpoint, if the number of arguments, the type and the protocol are accepted. -/
def accepted (argv : List String) : Option EndpointType := do
  if argv.length < 6 ∨ argv.length > 8 then none
  else
    let type ← parseType argv.length (← argv[1]?)
    let protocol ← parseProtocol (← argv[4]?)
    if (tbCreateProtocol protocol).isSome then some type else none

/-- What the last arguments of a client must be, next to its buffer size. -/
def RunnableFile (bufsize : Option Int) (fileType fileName : Option String) : Prop :=
  ∃ t, fileType = some t ∧
    if t = "size" then
      ∃ n, fileName = some n ∧ (∃ b, bufsize = some b ∧ 0 ≤ b) ∧
        1 ≤ asInt ((scanInt n).getD 0 * 1024)
    else t = "file" → fileName ≠ none ∧ ∃ b, bufsize = some b ∧ 1 ≤ b

def RunnableArgs (argv : List String) : Prop :=
  ∀ type, accepted argv = some type →
    if isClient type then RunnableFile (argv[5]?.bind scanInt) argv[6]? argv[7]?
    else ∃ b, argv[5]?.bind scanInt = some b ∧ 0 ≤ b

variable {argv : List String} {junk : Int} {l : TbListener}

/-! ## The arguments -/

theorem arg_of_lt (argv : List String) (i : Nat) (h : i < argv.length) :
    ∃ s, argv[i]? = some s ∧ arg argv i = .ok s := by
  have hget : argv[i]? = some argv[i] := List.getElem?_eq_getElem h
  refine ⟨argv[i], hget, ?_⟩
  unfold arg
  rw [hget]

/-- The listener of `tb_create_listener`, which only the protocol can fail. -/
theorem tbCreateListener_cases (type : EndpointType) (address port : String) (protocol : Protocol)
    (bufsize : Int) :
    (tbCreateListener type address port protocol bufsize = none ∧
        (tbCreateProtocol protocol).isSome = false) ∨
      ∃ l, tbCreateListener type address port protocol bufsize = some l ∧
        (tbCreateProtocol protocol).isSome = true ∧ l.eType = type ∧ l.bufsize = bufsize ∧
        l.fileSize = 0 ∧ l.filename = none := by
  unfold tbCreateListener
  cases tbCreateProtocol protocol with
  | none => exact .inl ⟨rfl, rfl⟩
  | some table => exact .inr ⟨_, rfl, rfl, rfl, rfl, rfl, rfl⟩

@[simp] theorem orExit_some {α : Type} (a : α) : orExit (some a) = .ok a := rfl

@[simp] theorem orExit_none {α : Type} : orExit (none : Option α) = .error .exits := rfl

@[simp] theorem ok_bind {α β : Type} (a : α) (f : α → Except Stop β) :
    (Except.ok a >>= f) = f a := rfl

@[simp] theorem error_bind {α β : Type} (e : Stop) (f : α → Except Stop β) :
    (Except.error e >>= f) = .error e := rfl

/-- What `tb_parse` does, by what it accepts. -/
theorem tbParseOutcome_cases (junk : Int) (argv : List String) :
    (accepted argv = none ∧ tbParseOutcome junk argv = .error .exits) ∨
      ∃ type l, accepted argv = some type ∧ l.eType = type ∧
        l.bufsize = (argv[5]?.bind scanInt).getD junk ∧ l.fileSize = 0 ∧ l.filename = none ∧
        tbParseOutcome junk argv = startListener argv (argv[5]?.bind scanInt).isSome l := by
  by_cases hlength : argv.length < 6 ∨ argv.length > 8
  · exact .inl ⟨if_pos hlength, if_pos hlength⟩
  obtain ⟨typeArg, htype, htype'⟩ := arg_of_lt argv 1 (by omega)
  obtain ⟨address, -, haddress⟩ := arg_of_lt argv 2 (by omega)
  obtain ⟨port, -, hport⟩ := arg_of_lt argv 3 (by omega)
  obtain ⟨prot, hprot, hprot'⟩ := arg_of_lt argv 4 (by omega)
  obtain ⟨size, hsize, hsize'⟩ := arg_of_lt argv 5 (by omega)
  simp only [accepted, tbParseOutcome, if_neg hlength, htype, htype', haddress, hport, hprot,
    hprot', hsize, hsize', Option.bind_some, Option.bind_eq_bind, ok_bind]
  cases parseType argv.length typeArg with
  | none => exact .inl ⟨rfl, rfl⟩
  | some type =>
  cases parseProtocol prot with
  | none => exact .inl ⟨rfl, rfl⟩
  | some protocol =>
  rcases tbCreateListener_cases type address port protocol ((scanInt size).getD junk) with
    ⟨hl, htable⟩ | ⟨l, hl, htable, hrest⟩
  · exact .inl ⟨by simp [htable], by simp [hl]⟩
  · exact .inr ⟨type, l, by simp [htable], hrest.1, hrest.2.1, hrest.2.2.1, hrest.2.2.2,
      by simp [hl]⟩

/-! ## What is started -/

theorem parseBufsize_bufsize (l : TbListener) : (parseBufsize l).bufsize =
    if l.bufsize = 0 then if isClient l.eType then l.fileSize else 1408 else l.bufsize := by
  unfold parseBufsize
  split
  · split <;> rfl
  · rfl

/-- The default changes the buffer size only. -/
theorem parseBufsize_keeps (l : TbListener) : (parseBufsize l).eType = l.eType ∧
    (parseBufsize l).fileSize = l.fileSize ∧ (parseBufsize l).filename = l.filename := by
  unfold parseBufsize
  split
  · split <;> exact ⟨rfl, rfl, rfl⟩
  · exact ⟨rfl, rfl, rfl⟩

/-- A listener that is started is runnable if its defaults come out so. -/
theorem runnable_ok_iff {initialised : Bool} {d : Bool} {e a : ListenerFn} :
    Runnable (.ok ({ parseBufsize l with dExit := d, fExit := e, fAbort := a }, initialised)) ↔
      initialised = true ∧ 1 ≤ (parseBufsize l).bufsize ∧
        (isClient l.eType = true → l.filename ≠ none ∨ 1 ≤ l.fileSize) := by
  obtain ⟨htype, hsize, hname⟩ := parseBufsize_keeps l
  simp only [Runnable, htype, hsize, hname]

/-- A server runs with a buffer size that was given and is not negative. -/
theorem runnable_server_iff {bufsize : Option Int} (hserver : isClient l.eType = false)
    (hbuf : l.bufsize = bufsize.getD junk) :
    Runnable (startListener argv bufsize.isSome l) ↔ ∃ b, bufsize = some b ∧ 0 ≤ b := by
  simp only [startListener, hserver, Bool.false_eq_true, if_false, ok_bind]
  rw [runnable_ok_iff, parseBufsize_bufsize, hserver, hbuf]
  cases bufsize with
  | none => simp
  | some b =>
    simp only [Option.isSome_some, Option.getD_some, Option.some.injEq, exists_eq_left',
      Bool.false_eq_true, if_false, false_implies, and_true, true_and]
    split <;> omega

/-- A client that is given a size. -/
theorem runnable_size_iff {bufsize : Option Int} {n : String} (hclient : isClient l.eType = true)
    (hbuf : l.bufsize = bufsize.getD junk) (hsize : l.fileSize = 0) (hname : l.filename = none)
    (h₆ : argv[6]? = some "size") (h₇ : argv[7]? = some n) :
    Runnable (startListener argv bufsize.isSome l) ↔
      (∃ b, bufsize = some b ∧ 0 ≤ b) ∧ 1 ≤ asInt ((scanInt n).getD 0 * 1024) := by
  simp only [startListener, hclient, if_true, loadFile, arg, h₆, h₇, ok_bind]
  rw [runnable_ok_iff, parseBufsize_bufsize]
  simp only [hclient, hbuf, hsize, hname, if_true, ne_eq, not_true_eq_false, false_or, true_implies]
  cases bufsize with
  | none => simp
  | some b =>
    simp only [Option.isSome_some, Option.getD_some, Option.some.injEq, exists_eq_left', true_and]
    split <;> omega

/-- A client that is given the name of a file: its size is not known yet. -/
theorem runnable_file_iff {bufsize : Option Int} {n : String} (hclient : isClient l.eType = true)
    (hbuf : l.bufsize = bufsize.getD junk) (hsize : l.fileSize = 0)
    (h₆ : argv[6]? = some "file") (h₇ : argv[7]? = some n) :
    Runnable (startListener argv bufsize.isSome l) ↔ ∃ b, bufsize = some b ∧ 1 ≤ b := by
  have hne : ("file" : String) ≠ "size" := by decide
  simp only [startListener, hclient, if_true, loadFile, arg, h₆, h₇, ok_bind, if_neg hne]
  rw [runnable_ok_iff, parseBufsize_bufsize]
  simp only [hclient, hbuf, hsize, if_true, ne_eq, reduceCtorEq, not_false_eq_true, true_or,
    implies_true, and_true]
  cases bufsize with
  | none => simp
  | some b =>
    simp only [Option.isSome_some, Option.getD_some, Option.some.injEq, exists_eq_left', true_and]
    split <;> omega

theorem runnable_client_iff {bufsize : Option Int} (hclient : isClient l.eType = true)
    (hbuf : l.bufsize = bufsize.getD junk) (hsize : l.fileSize = 0) (hname : l.filename = none) :
    Runnable (startListener argv bufsize.isSome l) ↔ RunnableFile bufsize argv[6]? argv[7]? := by
  cases h₆ : argv[6]? with
  | none => simp [startListener, hclient, loadFile, arg, h₆, Runnable, RunnableFile]
  | some t =>
  by_cases ht : t = "size"
  · subst ht
    cases h₇ : argv[7]? with
    | none => simp [startListener, hclient, loadFile, arg, h₆, h₇, Runnable, RunnableFile]
    | some n =>
      rw [runnable_size_iff hclient hbuf hsize hname h₆ h₇]
      simp [RunnableFile]
  by_cases ht' : t = "file"
  · subst ht'
    cases h₇ : argv[7]? with
    | none => simp [startListener, hclient, loadFile, arg, h₆, h₇, Runnable, RunnableFile]
    | some n =>
      rw [runnable_file_iff hclient hbuf hsize h₆ h₇]
      simp [RunnableFile]
  · simp [startListener, hclient, loadFile, arg, h₆, ht, ht', Runnable, RunnableFile]

/-- **What the command line admits.** Whatever the arguments and the value of the buffer size before it is
read, `tb_parse` uses no missing argument and starts only runnable configurations exactly for the
arguments of `RunnableArgs`. -/
theorem tbParse_runnable_iff (junk : Int) (argv : List String) :
    Runnable (tbParseOutcome junk argv) ↔ RunnableArgs argv := by
  rcases tbParseOutcome_cases junk argv with
    ⟨haccepted, hout⟩ | ⟨type, l, haccepted, htype, hbuf, hsize, hname, hout⟩
  · rw [hout]
    exact iff_of_true trivial fun type h => by simp [haccepted] at h
  · rw [hout]
    simp only [RunnableArgs, haccepted, Option.some.injEq, forall_eq']
    subst htype
    cases hclient : isClient l.eType with
    | true => exact runnable_client_iff hclient hbuf hsize hname
    | false => exact runnable_server_iff hclient hbuf

/-- A multi-connection client without a file, a server whose buffer size is no number, and a client with
no bytes to send. -/
theorem tbParse_admits_unrunnable :
    ¬ (∀ junk argv, Runnable (tbParseOutcome junk argv)) ∧
      tbParseOutcome 0 ["TestBed", "mclient", "127.0.0.1", "5000", "tcp", "1408"] =
        .error (.usesMissing 6) ∧
      ¬ Runnable (tbParseOutcome (-1) ["TestBed", "server", "127.0.0.1", "5000", "tcp", "mtu"]) ∧
      ¬ Runnable (tbParseOutcome 0
        ["TestBed", "client", "127.0.0.1", "5000", "tcp", "1408", "size", "0"]) := by
  refine ⟨fun h => ?_, rfl, ?_, ?_⟩
  · exact h 0 ["TestBed", "mclient", "127.0.0.1", "5000", "tcp", "1408"]
  · rintro ⟨hinit, -, -⟩
    cases hinit
  · rintro ⟨-, -, hfile⟩
    rcases hfile rfl with hname | hsize
    · exact hname rfl
    · exact absurd hsize (by decide)

/-! ## The listeners that are started -/

theorem loadFile_toOption (argv : List String) (l : TbListener) :
    (loadFile argv l).toOption = parseFile argv l := by
  unfold loadFile parseFile arg
  cases h₆ : argv[6]? with
  | none => rfl
  | some t =>
    by_cases ht : t = "size"
    · cases argv[7]? <;> simp [ht] <;> rfl
    by_cases ht' : t = "file"
    · cases argv[7]? <;> simp [ht'] <;> rfl
    · cases argv[7]? <;> simp [ht, ht'] <;> rfl

/-- The listener that is started is the one that `tbParse` makes from there on. -/
theorem startListener_eq_ok_iff {initialised i : Bool} {l₀ : TbListener} :
    startListener argv initialised l₀ = .ok (l, i) ↔
      (∃ l', (if isClient l₀.eType then parseFile argv l₀ else some l₀) = some l' ∧
        { parseBufsize l' with dExit := true, fExit := .tbExit, fAbort := .tbAbort } = l) ∧
      initialised = i := by
  unfold startListener
  cases hclient : isClient l₀.eType with
  | true =>
    rw [← loadFile_toOption]
    cases loadFile argv l₀ with
    | error e => simp [Except.toOption]
    | ok l' => simp [Except.toOption]
  | false => simp

/-- `tbParse` has the listeners that are started with a buffer size that was given. -/
theorem tbParse_eq_some_iff (junk : Int) (argv : List String) (l : TbListener) :
    tbParse argv = some l ↔ tbParseOutcome junk argv = .ok (l, true) := by
  by_cases hlength : argv.length < 6 ∨ argv.length > 8
  · simp [tbParse, tbParseOutcome, hlength]
  obtain ⟨typeArg, htype, htype'⟩ := arg_of_lt argv 1 (by omega)
  obtain ⟨address, haddress, haddress'⟩ := arg_of_lt argv 2 (by omega)
  obtain ⟨port, hport, hport'⟩ := arg_of_lt argv 3 (by omega)
  obtain ⟨prot, hprot, hprot'⟩ := arg_of_lt argv 4 (by omega)
  obtain ⟨size, hsize, hsize'⟩ := arg_of_lt argv 5 (by omega)
  simp only [tbParse, tbParseOutcome, if_neg hlength, htype, htype', haddress, haddress', hport,
    hport', hprot, hprot', hsize, hsize', Option.bind_some, Option.bind_eq_bind, ok_bind]
  cases parseType argv.length typeArg with
  | none => simp
  | some type =>
  cases parseProtocol prot with
  | none => simp
  | some protocol =>
  cases scanInt size with
  | none =>
    simp only [Option.bind_some, Option.bind_none, orExit_some, ok_bind, Option.getD_none,
      Option.isSome_none, reduceCtorEq, false_iff]
    cases tbCreateListener type address port protocol junk with
    | none => simp
    | some l₀ => simp [startListener_eq_ok_iff]
  | some b =>
    simp only [Option.bind_some, orExit_some, ok_bind, Option.getD_some, Option.isSome_some]
    cases tbCreateListener type address port protocol b with
    | none => simp
    | some l₀ =>
      simp only [orExit_some, ok_bind, startListener_eq_ok_iff, and_true]
      cases hclient : isClient l₀.eType <;> simp [hclient, Option.bind_eq_some_iff]

end TestBed.Setup

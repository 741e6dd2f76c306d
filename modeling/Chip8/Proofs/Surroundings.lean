import Chip8.Proofs.Restart
import Chip8.Proofs.SpriteDrawing

/-!
# What gets into a program

The timers, their gate and the random words surround a program, and so do the
keys and the clock. It can ask for them by five kinds of opcodes. As long as it
executes none of these, they make no difference: two runs that start alike but
for the surroundings go on to fetch the same opcodes and to compute the same,
however the clock moves and whenever the screen is refreshed. All the host may
notice is when the tone sounds and when it is shown the plane.

As with addresses, a machine like another one is that machine in other
surroundings, so most instructions cannot tell the two apart by definition.
-/
namespace Chip8

/-- Opcodes of the forms Fx07, Ex9E, ExA1, Fx0A and Cxkk. -/
def Listens (opcode : UInt16) : Prop :=
  let family := opcode.toNat / 0x1000
  let low := opcode.toNat % 0x100
  family = 0xF ∧ low = 0x07 ∨ family = 0xE ∧ low = 0x9E ∨ family = 0xE ∧ low = 0xA1
    ∨ family = 0xF ∧ low = 0x0A ∨ family = 0xC

instance (opcode : UInt16) : Decidable (Listens opcode) := inferInstanceAs (Decidable (_ ∨ _))

theorem family_eq (opcode : UInt16) : opcode.toNat / 0x1000 = (nibble opcode 3).val := by
  have bound := opcode.toNat_lt
  simp only [nibble, Nibble.ofNat, Fin.val_ofNat, Nat.shiftRight_eq_div_pow]
  omega

theorem low_eq (opcode : UInt16) :
    opcode.toNat % 0x100 = 16 * (nibble opcode 1).val + (nibble opcode 0).val := by
  simp only [nibble, Nibble.ofNat, Fin.val_ofNat, Nat.shiftRight_eq_div_pow]
  omega

namespace Instruction

/-- Instructions that let something of the surroundings in. -/
def listens : Instruction → Bool
  | readDelay _ | skipIfKey _ | skipUnlessKey _ | awaitKey _ | random _ _ => true
  | _ => false

theorem ofSystem_deaf {x y n : Nibble} {instruction : Instruction}
    (decoded : ofSystem x y n = some instruction) : instruction.listens = false := by
  unfold ofSystem at decoded
  split at decoded <;> cases decoded <;> rfl

theorem ofArithmetic_deaf {x y n : Nibble} {instruction : Instruction}
    (decoded : ofArithmetic x y n = some instruction) : instruction.listens = false := by
  unfold ofArithmetic at decoded
  split at decoded <;> cases decoded <;> rfl

theorem ofKeypad_digits {x y n : Nibble} {instruction : Instruction}
    (decoded : ofKeypad x y n = some instruction) : y = 0x9 ∧ n = 0xE ∨ y = 0xA ∧ n = 0x1 := by
  unfold ofKeypad at decoded
  split at decoded
  · exact Or.inl ⟨rfl, rfl⟩
  · exact Or.inr ⟨rfl, rfl⟩
  · cases decoded

theorem ofTransfer_digits {x y n : Nibble} {instruction : Instruction}
    (decoded : ofTransfer x y n = some instruction) (listens : instruction.listens = true) :
    y = 0x0 ∧ (n = 0x7 ∨ n = 0xA) := by
  unfold ofTransfer at decoded
  split at decoded
  -- Only the first two of the family listen.
  · exact ⟨rfl, Or.inl rfl⟩
  · exact ⟨rfl, Or.inr rfl⟩
  all_goals cases decoded
  all_goals cases listens

theorem ofNibbles_listens {family x y n : Nibble} {instruction : Instruction}
    (decoded : ofNibbles family x y n = some instruction) (listens : instruction.listens = true) :
    family = 0xF ∧ y = 0x0 ∧ (n = 0x7 ∨ n = 0xA) ∨
      family = 0xE ∧ (y = 0x9 ∧ n = 0xE ∨ y = 0xA ∧ n = 0x1) ∨ family = 0xC := by
  unfold ofNibbles at decoded
  simp only at decoded
  split at decoded
  case h_1 => simp [ofSystem_deaf decoded] at listens
  case h_9 => simp [ofArithmetic_deaf decoded] at listens
  case h_13 => exact Or.inr (Or.inr rfl)
  case h_15 => exact Or.inr (Or.inl ⟨rfl, ofKeypad_digits decoded⟩)
  -- What is left of the sixteen families is the last.
  case h_16 =>
    refine Or.inl ⟨?_, ofTransfer_digits decoded listens⟩
    grind
  case h_6 | h_10 =>
    split at decoded
    all_goals cases decoded
    all_goals cases listens
  all_goals
    cases decoded
    cases listens

theorem decode_listens {opcode : UInt16} {instruction : Instruction}
    (decoded : decode opcode = .ok instruction) (listens : instruction.listens = true) :
    Listens opcode := by
  have nibbles : ofNibbles (nibble opcode 3) (nibble opcode 2) (nibble opcode 1)
      (nibble opcode 0) = some instruction := by
    unfold decode at decoded
    split at decoded
    next found =>
      cases decoded
      exact found
    · cases decoded
  simp only [Listens, family_eq, low_eq]
  rcases ofNibbles_listens nibbles listens with
    ⟨family, high, low | low⟩ | ⟨family, ⟨high, low⟩ | ⟨high, low⟩⟩ | family
  · simp only [family, high, low]
    decide
  · simp only [family, high, low]
    decide
  · simp only [family, high, low]
    decide
  · simp only [family, high, low]
    decide
  · rw [family]
    exact Or.inr (Or.inr (Or.inr (Or.inr rfl)))

end Instruction

theorem decode_listens {dialect : Dialect} {opcode : UInt16} {instruction : Instruction}
    (decoded : dialect.decode opcode = .ok instruction) (listens : instruction.listens = true) :
    Listens opcode := by
  unfold Dialect.decode at decoded
  split at decoded
  · cases decoded
  next found =>
    split at decoded
    · cases decoded
    · cases decoded
      exact Instruction.decode_listens found listens

def Call.isPresentation : Call → Bool
  | draw _ | beginTone | endTone => true
  | _ => false

/-- What was asked of the host besides sounding the tone and showing the plane. -/
def requests (events : List Event) : List Call :=
  (calls events).filter fun call => !call.isPresentation

theorem requests_append (early late : List Event) :
    requests (early ++ late) = requests early ++ requests late := by
  rw [requests, calls_append, List.filter_append, requests, requests]

namespace Plane

theorem eq_of_shown {one other : Plane} (same : one.shown = other.shown) :
    other = { one with dirty := other.dirty } := by
  apply Plane.ext
  · exact (congrArg Plane.resolution same).symm
  · exact (congrArg Plane.background same).symm
  · exact (congrArg Plane.foreground same).symm
  · exact (congrArg Plane.coloured same).symm
  · rfl
  · exact (congrArg Plane.cells same).symm

/-- The dirty flag takes no part in drawing. -/
theorem plot_shown {one other : Plane} (same : one.shown = other.shown) (x y : Nat) :
    (one.plot x y).1.shown = (other.plot x y).1.shown ∧ (one.plot x y).2 = (other.plot x y).2 := by
  rw [eq_of_shown same]
  by_cases inside : one.place (x, y) < one.area
  · rw [plot_inside one x y inside, plot_inside { one with dirty := other.dirty } x y inside]
    exact ⟨rfl, rfl⟩
  · rw [plot_outside one x y inside, plot_outside { one with dirty := other.dirty } x y inside]
    exact ⟨rfl, rfl⟩

theorem plots_shown {one other : Plane} (same : one.shown = other.shown)
    (points : List (Nat × Nat)) :
    (one.plots points).1.shown = (other.plots points).1.shown ∧
      (one.plots points).2 = (other.plots points).2 := by
  induction points generalizing one other with
  | nil => exact ⟨same, rfl⟩
  | cons point rest ih =>
    obtain ⟨drawn, hit⟩ := plot_shown same point.1 point.2
    obtain ⟨later, hits⟩ := ih drawn
    exact ⟨later, congrArg₂ Bool.or hit hits⟩

end Plane

namespace Machine

/-- All of a machine that a program computes with. -/
structure Architecture where
  counter : UInt16
  memory : Memory
  v : Bank UInt8
  index : UInt16
  stack : CallStack
  /-- The plane as if it had just been shown. -/
  screen : Plane
  dialect : Dialect

def architecture (machine : Machine) : Architecture where
  counter := machine.counter
  memory := machine.memory
  v := machine.registers.v
  index := machine.registers.index
  stack := machine.stack
  screen := machine.plane.shown
  dialect := machine.dialect

/-- The rest of a machine. -/
structure Surroundings where
  delay : UInt8
  sound : UInt8
  gate : TimerGate
  words : WordStream
  dirty : Bool

def surroundings (machine : Machine) : Surroundings where
  delay := machine.registers.delay
  sound := machine.registers.sound
  gate := machine.gate
  words := machine.words
  dirty := machine.plane.dirty

/-- The machine in other surroundings. -/
def within (machine : Machine) (surroundings : Surroundings) : Machine :=
  { machine with
    registers :=
      { machine.registers with delay := surroundings.delay, sound := surroundings.sound }
    plane := { machine.plane with dirty := surroundings.dirty }
    gate := surroundings.gate
    words := surroundings.words }

theorem eq_within {one other : Machine} (same : one.architecture = other.architecture) :
    other = one.within other.surroundings := by
  apply Machine.ext
  · exact (congrArg Architecture.counter same).symm
  · exact (congrArg Architecture.memory same).symm
  · apply Registers.ext
    · exact (congrArg Architecture.v same).symm
    · exact (congrArg Architecture.index same).symm
    · rfl
    · rfl
  · exact (congrArg Architecture.stack same).symm
  · exact Plane.eq_of_shown (congrArg Architecture.screen same)
  · rfl
  · rfl
  · exact (congrArg Architecture.dialect same).symm

end Machine

/-- Turns that differ for the surroundings alone. -/
structure Turn.Insulated (one other : Turn) : Prop where
  outcome : one.outcome = other.outcome
  requests : requests one.events = requests other.events
  architecture : one.machine.architecture = other.machine.architecture

namespace Machine

section

variable (machine : Machine) (surroundings : Surroundings)

theorem skipIf_architecture (condition : Bool) :
    (machine.skipIf condition).architecture =
      ((machine.within surroundings).skipIf condition).architecture := by
  cases condition <;> rfl

theorem stamp_points (x y height : Nibble) :
    machine.plane.stamp (machine.sprite height) (machine.registers.get x).toNat
        (machine.registers.get y).toNat =
      machine.plane.plots (machine.points x y height) := Plane.stamp_eq_plots _ _ _ _

theorem drawSprite_architecture (x y height : Nibble) :
    (machine.drawSprite x y height).architecture =
      ((machine.within surroundings).drawSprite x y height).architecture := by
  have same : machine.plane.shown = (machine.within surroundings).plane.shown := rfl
  obtain ⟨screen, hit⟩ := Plane.plots_shown same (machine.points x y height)
  have points : (machine.within surroundings).points x y height = machine.points x y height := rfl
  simp only [drawSprite_eq, stamp_points, points, architecture, screen, hit]
  rfl

theorem setSound_requests (value : UInt8) : requests (machine.setSound value).events = [] := by
  rw [requests, setSound_calls]
  split
  · rfl
  · split <;> rfl

theorem reset_requests (answers : Answers) : requests (machine.reset answers).2 =
    .takeWords :: ((if machine.plane.resolution = .low then [] else [.resized .low])
      ++ [.loadProgram programRoom (answers.rom.copied programRoom)]) := by
  rw [requests, reset_calls]
  split <;> split <;> rfl

theorem tick_requests (now : Instant) : requests (machine.tick now).2 = [] := by
  rw [requests, tick_calls]
  split <;> rfl

theorem tick_architecture (now : Instant) :
    (machine.tick now).1.architecture = machine.architecture := by
  rw [tick_eq]
  cases (machine.gate.poll now).2 <;> rfl

theorem execute_insulated {answers other : Answers} (image : answers.rom = other.rom)
    {instruction : Instruction} (deaf : instruction.listens = false) :
    (execute answers machine instruction).Insulated
      (execute other (machine.within surroundings) instruction) := by
  cases instruction with
  | readDelay | skipIfKey | skipUnlessKey | awaitKey | random => cases deaf
  | skipIfByte | skipUnlessByte | skipIfEqual | skipUnlessEqual =>
    exact ⟨rfl, rfl, skipIf_architecture machine surroundings _⟩
  | draw x y height => exact ⟨rfl, rfl, drawSprite_architecture machine surroundings x y height⟩
  | setSound x =>
    refine ⟨rfl, ?_, rfl⟩
    exact (setSound_requests machine _).trans (setSound_requests _ _).symm
  -- What starts over starts from the image alone, and a narrow screen is one for both.
  | softReset =>
    refine ⟨rfl, ?_, ?_⟩
    · simp only [execute, reset_requests, image]
      rfl
    · simp only [execute, reset, architecture, image]
      rfl
  | _ => exact ⟨rfl, rfl, rfl⟩

theorem obey_insulated {answers other : Answers} (image : answers.rom = other.rom)
    {instruction : Instruction} (deaf : instruction.listens = false) :
    (machine.obey answers instruction).Insulated
      ((machine.within surroundings).obey other instruction) := by
  have executed : (execute answers machine.advanced instruction).Insulated
      (execute other (machine.within surroundings).advanced instruction) :=
    execute_insulated machine.advanced surroundings image deaf
  by_cases leaves : instruction = .exit
  · rw [leaves, obey_exit, obey_exit]
    exact ⟨rfl, rfl, rfl⟩
  · rw [obey_running answers machine instruction leaves,
      obey_running other (machine.within surroundings) instruction leaves]
    refine ⟨rfl, ?_, ?_⟩
    · have traced (note : Note) (events : List Event) :
          requests (.note note :: events) = requests events := rfl
      simp only [traced, requests_append, tick_requests, executed.requests]
    · simp only [tick_architecture, executed.architecture]

end

theorem refresh_requests (machine : Machine) : requests machine.refresh.2 = [] := by
  rw [requests, refresh_calls]
  split <;> rfl

theorem refresh_architecture (machine : Machine) :
    machine.refresh.1.architecture = machine.architecture := by
  rw [refresh_eq]
  rfl

/-- What can be seen of one step. -/
structure Observation where
  opcode : UInt16
  reply : Reply
  /-- What was requested since the step before. -/
  requests : List Call
  /-- What the step left. -/
  architecture : Architecture

/-- What can be seen of each step of a run. Requests made between steps count to the next one. -/
def watch (machine : Machine) (requested : List Call) : List Operation → List Observation
  | [] => []
  | operation :: rest =>
    let response := machine.perform operation
    let requested := requested ++ requests response.events
    match operation with
    | .step _ =>
      { opcode := machine.fetch
        reply := response.reply
        requests := requested
        architecture := response.machine.architecture } :: response.machine.watch [] rest
    | .reset _ | .refresh => response.machine.watch requested rest

theorem perform_insulated {one other : Machine} (same : one.architecture = other.architecture)
    {answers answers' : Answers} (image : answers.rom = answers'.rom)
    (deaf : ¬Listens one.fetch) :
    let first := one.perform (.step answers)
    let second := other.perform (.step answers')
    one.fetch = other.fetch ∧ first.reply = second.reply ∧
      requests first.events = requests second.events ∧
      first.machine.architecture = second.machine.architecture := by
  have fetched : one.fetch = other.fetch := by
    rw [eq_within same]
    rfl
  have dialect : one.dialect = other.dialect := congrArg Architecture.dialect same
  refine ⟨fetched, ?_⟩
  cases decoded : one.dialect.decode one.fetch with
  | error fault =>
    have decoded' : other.dialect.decode other.fetch = .error fault := by
      rw [← dialect, ← fetched, decoded]
    simp only [perform_error (step_refused _ decoded), perform_error (step_refused _ decoded'),
      true_and]
    exact same
  | ok instruction =>
    have decoded' : other.dialect.decode other.fetch = .ok instruction := by
      rw [← dialect, ← fetched, decoded]
    have turns : (one.obey answers instruction).Insulated (other.obey answers' instruction) := by
      have unlistening : instruction.listens = false := by
        rw [← Bool.not_eq_true]
        exact fun listens => deaf (decode_listens decoded listens)
      rw [eq_within same]
      exact obey_insulated one other.surroundings image unlistening
    simp only [perform_ok (step_decoded _ decoded), perform_ok (step_decoded _ decoded')]
    exact ⟨congrArg Reply.stepped turns.outcome, turns.requests, turns.architecture⟩

/-- Steps with given answers, one after the other, and refreshes anywhere between them. -/
inductive Steps : List Operation → List Answers → Prop
  | none : Steps [] []
  | step (answers : Answers) {operations : List Operation} {later : List Answers} :
    Steps operations later → Steps (.step answers :: operations) (answers :: later)
  | refresh {operations : List Operation} {later : List Answers} :
    Steps operations later → Steps (.refresh :: operations) later

theorem watch_refresh (machine : Machine) (requested : List Call) (rest : List Operation) :
    machine.watch requested (.refresh :: rest) = machine.refresh.1.watch requested rest := by
  simp only [watch, perform, refresh_requests, List.append_nil]

theorem Steps.watch_nil {operations : List Operation} (steps : Steps operations [])
    (machine : Machine) : machine.watch [] operations = [] := by
  induction operations generalizing machine with
  | nil => rfl
  | cons operation rest ih =>
    cases steps with
    | refresh steps =>
      rw [watch_refresh]
      exact ih steps machine.refresh.1

/-- What comes before the first step can be passed over. -/
theorem Steps.watch_cons {operations : List Operation} {answers : Answers}
    {later : List Answers} (steps : Steps operations (answers :: later)) (machine : Machine) :
    ∃ (rested : Machine) (rest : List Operation),
      rested.architecture = machine.architecture ∧ Steps rest later ∧
      machine.watch [] operations = rested.watch [] (.step answers :: rest) := by
  induction operations generalizing machine with
  | nil => cases steps
  | cons operation rest ih =>
    cases steps with
    | step _ steps => exact ⟨machine, rest, rfl, steps, rfl⟩
    | refresh steps =>
      obtain ⟨rested, after, same, stepped, seen⟩ := ih steps machine.refresh.1
      refine ⟨rested, after, same.trans (refresh_architecture machine), stepped, ?_⟩
      rw [watch_refresh, seen]

/-- Up to the first step that listens, what can be seen of a run depends on nothing but where it
starts from and the images it is given. -/
theorem surroundings_unseen {one other : Machine} (same : one.architecture = other.architecture)
    {first second : List Operation} {answers answers' : List Answers}
    (steps : Steps first answers) (steps' : Steps second answers') (count : Nat)
    (images : (answers.take count).map Answers.rom = (answers'.take count).map Answers.rom)
    (deaf : ∀ seen ∈ (one.watch [] first).take count, ¬Listens seen.opcode) :
    (one.watch [] first).take count = (other.watch [] second).take count := by
  induction count generalizing one other first second answers answers' with
  | zero => rfl
  | succ count ih =>
    cases answers with
    | nil =>
      cases answers' with
      | nil => rw [steps.watch_nil, steps'.watch_nil]
      | cons => cases images
    | cons answer later =>
      cases answers' with
      | nil => cases images
      | cons answer' later' =>
        simp only [List.take_succ_cons, List.map_cons, List.cons.injEq] at images
        obtain ⟨rested, rest, calm, steps, seen⟩ := steps.watch_cons one
        obtain ⟨rested', rest', calm', steps', seen'⟩ := steps'.watch_cons other
        rw [seen] at deaf ⊢
        rw [seen']
        simp only [watch, List.take_succ_cons, List.mem_cons, forall_eq_or_imp] at deaf ⊢
        obtain ⟨fetched, reply, requested, left⟩ :=
          perform_insulated (calm.trans (same.trans calm'.symm)) images.1 deaf.1
        rw [fetched, reply, requested, left, ih left steps steps' images.2 deaf.2]

/-- A program that sets the sound timer, where the tone is off and where it sounds, with other
clocks, keys, words and refreshes. -/
theorem surroundings_unseen_tone :
    let rom : Rom := { bytes := #[0xF0, 0x18] }
    let early : Answers :=
      { resetClock := 0, pollClock := 1, held := fun _ => false, rom, words := .cycling #[] }
    let late : Answers :=
      { resetClock := 9, pollClock := 99999999, held := fun _ => true, rom, words := .cycling #[7] }
    let one := fresh {} early
    let other := one.within
      { delay := 7, sound := 1, gate := { lastTick := -5 }, words := .cycling #[7], dirty := false }
    let first : List Operation := [.step early, .refresh]
    let second : List Operation := [.refresh, .refresh, .step late]
    one.architecture = other.architecture ∧ Steps first [early] ∧ Steps second [late] ∧
    (∀ seen ∈ (one.watch [] first).take 1, ¬Listens seen.opcode) ∧
    (one.watch [] first).take 1 = (other.watch [] second).take 1 := by
  intro rom early late one other first second
  have same : one.architecture = other.architecture := rfl
  have steps : Steps first [early] := .step early (.refresh .none)
  have steps' : Steps second [late] := .refresh (.refresh (.step late .none))
  have fetched : one.fetch = 0xF018 := by
    simp only [one, fresh, fetch, Memory.readWord, Memory.read, get_eq_getElem, Memory.load,
      Memory.blank, Vector.getElem_mapIdx, Vector.getElem_replicate]
    decide
  have deaf : ∀ seen ∈ (one.watch [] first).take 1, ¬Listens seen.opcode := by
    simp only [first, watch, List.take_succ_cons, List.take_zero, List.mem_singleton,
      forall_eq]
    rw [fetched]
    decide
  exact ⟨same, steps, steps', deaf, surroundings_unseen same steps steps' 1 rfl deaf⟩

end Machine

end Chip8

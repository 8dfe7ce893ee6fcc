import Chip8.Proofs.Machine.Agreement

/-! Ticks, keys and timers do not disturb each other unless an instruction joins them. However they
are interleaved, each of the three comes to what it would come to alone. -/
namespace Chip8

/-- Whether an instruction looks at keys or timers, or changes them. -/
def Instruction.usesDevice : Instruction → Bool
  | .skipIfKey _ | .skipUnlessKey _ | .awaitKey _ => true
  | .getDelay _ | .setDelay _ | .setSound _ => true
  | _ => false

namespace Machine

variable {m : Machine} {i : Instruction}

def withDevices (m : Machine) (keypad : Keypad) (timers : Timers) : Machine :=
  { m with keypad := keypad, timers := timers }

theorem passIndex_withDevices (m : Machine) (keypad : Keypad) (timers : Timers) (x : Register) :
    (m.withDevices keypad timers).passIndex x = (m.passIndex x).withDevices keypad timers := by
  unfold passIndex withDevices
  dsimp only
  split <;> rfl

theorem execute_withDevices (hi : i.usesDevice = false) (m : Machine) (keypad : Keypad)
    (timers : Timers) :
    (m.withDevices keypad timers).execute i =
      (m.execute i).map (·.withDevices keypad timers) := by
  cases i
  case skipIfKey | skipUnlessKey | awaitKey | getDelay | setDelay | setSound => cases hi
  case ret =>
    have hs : (m.withDevices keypad timers).stack = m.stack := rfl
    simp only [execute, hs]
    cases m.stack <;> rfl
  case call a =>
    have hs : (m.withDevices keypad timers).stack = m.stack := rfl
    simp only [execute, hs]
    split <;> rfl
  case store x =>
    have hp := passIndex_withDevices
      { m.advance with memory := m.memory.writeBytes m.i.toNat (m.v.upTo x) } keypad timers x
    exact congrArg Except.ok hp
  case fetch x =>
    have hp := passIndex_withDevices
      { m.advance with v := m.v.load (m.memory.readBytes m.i.toNat (x.val + 1)) } keypad timers x
    exact congrArg Except.ok hp
  all_goals rfl

theorem attempt_withDevices
    (h : ∀ i, Instruction.decode m.nextWord = some i → i.usesDevice = false) (keypad : Keypad)
    (timers : Timers) :
    (m.withDevices keypad timers).attempt = m.attempt.map (·.withDevices keypad timers) := by
  have hw : (m.withDevices keypad timers).nextWord = m.nextWord := rfl
  have hl : (m.withDevices keypad timers).flags.lenient = m.flags.lenient := rfl
  unfold attempt
  rw [hw, hl]
  cases hd : Instruction.decode m.nextWord with
  | none => cases m.flags.lenient <;> rfl
  | some i => exact execute_withDevices (h i hd) m keypad timers

theorem tick_withDevices (ha : m.activity = .running)
    (hu : ∀ i ∈ m.upcoming, i.usesDevice = false) (keypad : Keypad) (timers : Timers) :
    (m.withDevices keypad timers).tick.machine = m.tick.machine.withDevices keypad timers ∧
      (m.withDevices keypad timers).tick.result = m.tick.result := by
  cases hp : m.flags.pause with
  | true =>
    have hpd : (m.withDevices keypad timers).flags.pause = true := hp
    rw [tick_of_pause hpd, tick_of_pause hp]
    exact ⟨rfl, rfl⟩
  | false =>
    have hpd : (m.withDevices keypad timers).flags.pause = false := hp
    have had : (m.withDevices keypad timers).activity = .running := ha
    have hd : ∀ i, Instruction.decode m.nextWord = some i → i.usesDevice = false := by
      intro i hi
      refine hu i ?_
      rw [upcoming, if_pos ⟨hp, ha⟩]
      exact hi
    rw [(tick_eq_settle hpd).1, (tick_eq_settle hpd).2, (tick_eq_settle hp).1,
      (tick_eq_settle hp).2, outcome_of_running had, outcome_of_running ha,
      attempt_withDevices hd]
    cases m.attempt with
    | error f => exact ⟨rfl, rfl⟩
    | ok n =>
      constructor
      · simp only [Except.map, settle, machine_complete, withDevices]
      · simp only [Except.map, settle, result_complete]
        rfl

theorem keypad_and_timers_tick (ha : m.activity = .running)
    (hu : ∀ i ∈ m.upcoming, i.usesDevice = false) :
    m.tick.machine.keypad = m.keypad ∧ m.tick.machine.timers = m.timers := by
  have ht : m.tick.machine = m.tick.machine.withDevices m.keypad m.timers :=
    (tick_withDevices ha hu m.keypad m.timers).1
  rw [ht]
  exact ⟨rfl, rfl⟩

theorem activity_tick (ha : m.activity = .running)
    (hu : ∀ i ∈ m.upcoming, i.usesDevice = false) : m.tick.machine.activity = .running := by
  rcases (ticksTo_tick m).activity with ht | ht | ⟨x, hp, hf⟩
  · exact ht.trans ha
  · exact ht
  · have hx : Instruction.awaitKey x ∈ m.upcoming := by
      rw [upcoming, if_pos ⟨hp, ha⟩]
      exact hf.2
    cases hu _ hx

theorem setKey_congr {n : Machine} (hk : n.keypad = m.keypad) (key : Nat) (down : Bool) :
    (n.setKey key down).machine.keypad = (m.setKey key down).machine.keypad ∧
      (n.setKey key down).result = (m.setKey key down).result := by
  unfold setKey
  rw [hk]
  cases m.keypad.setKey key down with
  | ok moved => exact ⟨rfl, rfl⟩
  | error f => exact ⟨hk, rfl⟩

end Machine

namespace Operation

variable {m n : Machine}

def isTick : Operation → Bool
  | .tick => true
  | _ => false

def isSetKey : Operation → Bool
  | .setKey _ _ => true
  | _ => false

/-- What those of the operations answer that are picked, in order. -/
def answersTo (picked : Operation → Bool) (m : Machine) :
    List Operation → List (Except Fault Answer)
  | [] => []
  | op :: ops =>
    if picked op then (op.apply m).result :: answersTo picked (op.apply m).machine ops
    else answersTo picked (op.apply m).machine ops

def ofMove (move : Nat × Bool) : Operation := .setKey move.1 move.2

/-- Some ticks, some ticks of the timers and some moves of keys, put in one order. The moves keep
the order that they have among themselves. -/
inductive Interleaving : (ticks timers : Nat) → List (Nat × Bool) → List Operation → Prop where
  | nil : Interleaving 0 0 [] []
  | tick {ticks timers : Nat} {moves : List (Nat × Bool)} {ops : List Operation}
      (rest : Interleaving ticks timers moves ops) :
      Interleaving (ticks + 1) timers moves (.tick :: ops)
  | tickTimers {ticks timers : Nat} {moves : List (Nat × Bool)} {ops : List Operation}
      (rest : Interleaving ticks timers moves ops) :
      Interleaving ticks (timers + 1) moves (.tickTimers :: ops)
  | setKey {ticks timers : Nat} {moves : List (Nat × Bool)} {ops : List Operation}
      (key : Nat) (down : Bool) (rest : Interleaving ticks timers moves ops) :
      Interleaving ticks timers ((key, down) :: moves) (.setKey key down :: ops)

/-- The next ticks, when nothing comes between them, use no device. -/
def Undisturbed (m : Machine) (ticks : Nat) : Prop :=
  ∀ i ∈ executed m (List.replicate ticks .tick), i.usesDevice = false

theorem undisturbed_succ {ticks : Nat} :
    Undisturbed m (ticks + 1) ↔
      (∀ i ∈ m.upcoming, i.usesDevice = false) ∧ Undisturbed m.tick.machine ticks := by
  unfold Undisturbed
  rw [List.replicate_succ, executed]
  constructor
  · intro h
    refine ⟨fun i hi => h i ?_, fun i hi => h i (List.mem_append_right _ hi)⟩
    exact List.mem_append_left _ (Option.mem_toList.mpr hi)
  · rintro ⟨hfirst, hlater⟩ i hi
    rcases List.mem_append.mp hi with hi | hi
    · exact hfirst i (Option.mem_toList.mp hi)
    · exact hlater i hi

theorem Undisturbed.withDevices {ticks : Nat} (h : Undisturbed m ticks)
    (ha : m.activity = .running) (keypad : Keypad) (timers : Timers) :
    Undisturbed (m.withDevices keypad timers) ticks ∧
      run (m.withDevices keypad timers) (List.replicate ticks .tick) =
        (run m (List.replicate ticks .tick)).withDevices keypad timers ∧
      answers (m.withDevices keypad timers) (List.replicate ticks .tick) =
        answers m (List.replicate ticks .tick) := by
  induction ticks generalizing m with
  | zero => exact ⟨h, rfl, rfl⟩
  | succ ticks ih =>
    obtain ⟨hfirst, hlater⟩ := undisturbed_succ.mp h
    obtain ⟨hm, hr⟩ := Machine.tick_withDevices ha hfirst keypad timers
    obtain ⟨hu, hrun, hans⟩ := ih hlater (Machine.activity_tick ha hfirst)
    rw [← hm] at hu hrun hans
    refine ⟨undisturbed_succ.mpr ⟨hfirst, hu⟩, hrun, ?_⟩
    have ht : (apply (m.withDevices keypad timers) .tick).result = (apply m .tick).result :=
      congrArg (Except.map fun _ => Answer.done) hr
    exact congrArg₂ List.cons ht hans

theorem moves_congr (hk : n.keypad = m.keypad) (moves : List (Nat × Bool)) :
    (run n (moves.map ofMove)).keypad = (run m (moves.map ofMove)).keypad ∧
      answers n (moves.map ofMove) = answers m (moves.map ofMove) := by
  induction moves generalizing m n with
  | nil => exact ⟨hk, rfl⟩
  | cons move moves ih =>
    obtain ⟨hm, hr⟩ := Machine.setKey_congr hk move.1 move.2
    obtain ⟨hrun, hans⟩ := ih hm
    exact ⟨hrun, congrArg₂ List.cons (congrArg (Except.map Answer.changed) hr) hans⟩

theorem timers_congr (ht : n.timers = m.timers) (k : Nat) :
    (run n (List.replicate k .tickTimers)).timers =
      (run m (List.replicate k .tickTimers)).timers := by
  induction k generalizing m n with
  | zero => exact ht
  | succ k ih => exact ih (congrArg Timers.tick ht)

theorem toNat_timers (m : Machine) (k : Nat) :
    (run m (List.replicate k .tickTimers)).timers.delay.toNat = m.timers.delay.toNat - k ∧
      (run m (List.replicate k .tickTimers)).timers.sound.toNat = m.timers.sound.toNat - k := by
  induction k generalizing m with
  | zero => exact ⟨rfl, rfl⟩
  | succ k ih =>
    obtain ⟨hd, hs⟩ := ih m.tickTimers
    have hdelay : m.tickTimers.timers.delay.toNat = m.timers.delay.toNat - 1 :=
      Timers.toNat_countDown _
    have hsound : m.tickTimers.timers.sound.toNat = m.timers.sound.toNat - 1 :=
      Timers.toNat_countDown _
    rw [hdelay] at hd
    rw [hsound] at hs
    exact ⟨hd.trans (by omega), hs.trans (by omega)⟩

namespace Interleaving

variable {ticks timers : Nat} {moves : List (Nat × Bool)} {ops : List Operation}

theorem machine_ofMove (m : Machine) (key : Nat) (down : Bool) :
    ∃ keypad, (apply m (.setKey key down)).machine = m.withDevices keypad m.timers :=
  ⟨_, Machine.machine_setKey m key down⟩

/-- Keys and timers between the ticks do not change what is executed. -/
theorem undisturbed (h : Interleaving ticks timers moves ops) (ha : m.activity = .running)
    (hu : ∀ i ∈ executed m ops, i.usesDevice = false) : Undisturbed m ticks := by
  induction h generalizing m with
  | nil => exact hu
  | tick rest ih =>
    have hfirst : ∀ i ∈ m.upcoming, i.usesDevice = false := fun i hi =>
      hu i (List.mem_append_left _ (Option.mem_toList.mpr hi))
    have hlater := ih (Machine.activity_tick ha hfirst) fun i hi =>
      hu i (List.mem_append_right _ hi)
    exact undisturbed_succ.mpr ⟨hfirst, hlater⟩
  | tickTimers rest ih =>
    have hlater := ih (m := m.tickTimers) ha hu
    exact (hlater.withDevices ha m.keypad m.timers).1
  | setKey key down rest ih =>
    obtain ⟨keypad, hm⟩ := machine_ofMove m key down
    rw [executed, hm] at hu
    have hlater := ih (m := m.withDevices keypad m.timers) ha hu
    exact (hlater.withDevices ha m.keypad m.timers).1

/-- Each of the three goes its own way. -/
theorem run_eq (h : Interleaving ticks timers moves ops) (ha : m.activity = .running)
    (hu : Undisturbed m ticks) :
    run m ops =
        (run m (List.replicate ticks .tick)).withDevices (run m (moves.map ofMove)).keypad
          (run m (List.replicate timers .tickTimers)).timers ∧
      answersTo isTick m ops = answers m (List.replicate ticks .tick) ∧
      answersTo isSetKey m ops = answers m (moves.map ofMove) := by
  induction h generalizing m with
  | nil => exact ⟨rfl, rfl, rfl⟩
  | @tick ticks timers moves ops rest ih =>
    obtain ⟨hfirst, hlater⟩ := undisturbed_succ.mp hu
    obtain ⟨hk, ht⟩ := Machine.keypad_and_timers_tick ha hfirst
    obtain ⟨hrun, hticks, hmoves⟩ := ih (Machine.activity_tick ha hfirst) hlater
    obtain ⟨hkeys, hanswers⟩ := moves_congr hk moves
    rw [hkeys, timers_congr ht] at hrun
    exact ⟨hrun, congrArg (List.cons _) hticks, hmoves.trans hanswers⟩
  | @tickTimers ticks timers moves ops rest ih =>
    have hm : m.tickTimers = m.withDevices m.keypad m.timers.tick := rfl
    obtain ⟨hlater, hsame, hans⟩ := hu.withDevices ha m.keypad m.timers.tick
    rw [← hm] at hlater hsame hans
    obtain ⟨hrun, hticks, hmoves⟩ := ih (m := m.tickTimers) ha hlater
    obtain ⟨hkeys, hanswers⟩ := moves_congr (m := m) (n := m.tickTimers) rfl moves
    rw [hsame, hkeys] at hrun
    exact ⟨hrun, hticks.trans hans, hmoves.trans hanswers⟩
  | @setKey ticks timers moves ops key down rest ih =>
    obtain ⟨keypad, hm⟩ := machine_ofMove m key down
    obtain ⟨hlater, hsame, hans⟩ := hu.withDevices ha keypad m.timers
    obtain ⟨hrun, hticks, hmoves⟩ := ih (m := m.withDevices keypad m.timers) ha hlater
    have htimers := timers_congr (m := m) (n := m.withDevices keypad m.timers) rfl timers
    rw [hsame, htimers, ← hm] at hrun
    rw [hans, ← hm] at hticks
    rw [← hm] at hmoves
    exact ⟨hrun, hticks, congrArg (List.cons _) hmoves⟩

end Interleaving

end Operation

namespace Machine

open Operation

/-- Ticks, keys and timers are independent unless an instruction joins them: every order of them
gives the same answers and the same machine. -/
theorem interleavings_agree {m : Machine} {ticks timers : Nat} {moves : List (Nat × Bool)}
    {ops other : List Operation} (ha : m.activity = .running)
    (ho : Interleaving ticks timers moves ops) (hother : Interleaving ticks timers moves other)
    (hu : ∀ i ∈ executed m ops, i.usesDevice = false) :
    answersTo isTick m other = answersTo isTick m ops ∧
      answersTo isSetKey m other = answersTo isSetKey m ops ∧
      run m other = run m ops ∧
      (run m ops).timers.delay.toNat = m.timers.delay.toNat - timers ∧
      (run m ops).timers.sound.toNat = m.timers.sound.toNat - timers := by
  have hticks := ho.undisturbed ha hu
  obtain ⟨hrun, htick, hmove⟩ := ho.run_eq ha hticks
  obtain ⟨hrun', htick', hmove'⟩ := hother.run_eq ha hticks
  obtain ⟨hdelay, hsound⟩ := toNat_timers m timers
  refine ⟨htick'.trans htick.symm, hmove'.trans hmove.symm, hrun'.trans hrun.symm, ?_, ?_⟩
  · rw [hrun]
    exact hdelay
  · rw [hrun]
    exact hsound

/-- It makes no difference whether keys, one of which does not exist, and a running timer come
before three ticks or between them, the second of which stops at a breakpoint. -/
theorem interleavings_agree_at_breakpoint :
    let m := run (.boot {} (.ofSeed 0))
      [.load [0x60, 0x05, 0xf0, 0x15, 0x71, 0x01, 0x22, 0x0a, 0x00, 0xe0, 0xc2, 0xff], .reset,
        .multistep 2, .setBreak 0x20a]
    let ops : List Operation :=
      [.tick, .setKey 3 true, .tickTimers, .tick, .setKey 16 true, .tick]
    let other : List Operation :=
      [.setKey 3 true, .setKey 16 true, .tickTimers, .tick, .tick, .tick]
    executed m ops = [.addByte ⟨1, by decide⟩ 1, .call 0x20a] ∧
      answersTo isTick m other =
        [.ok .done, .error (.breakpoint 0x20a 0xc2ff), .ok .done] ∧
      answersTo isSetKey m other = [.ok (.changed true), .error (.noSuchKey 16)] ∧
      run m other = run m ops ∧ (run m other).timers.delay.toNat = 5 - 1 := by
  intro m ops other
  have hops : Interleaving 3 1 [(3, true), (16, true)] ops :=
    .tick (.setKey 3 true (.tickTimers (.tick (.setKey 16 true (.tick .nil)))))
  have hother : Interleaving 3 1 [(3, true), (16, true)] other :=
    .setKey 3 true (.setKey 16 true (.tickTimers (.tick (.tick (.tick .nil)))))
  have hrun : m.activity = .running ∧ m.timers.delay.toNat = 5 ∧
      executed m ops = [.addByte ⟨1, by decide⟩ 1, .call 0x20a] ∧
      answersTo isTick m ops = [.ok .done, .error (.breakpoint 0x20a 0xc2ff), .ok .done] ∧
      answersTo isSetKey m ops = [.ok (.changed true), .error (.noSuchKey 16)] := by
    decide +kernel
  obtain ⟨ha, hd, he, hticks, hmoves⟩ := hrun
  have hu : ∀ i ∈ executed m ops, i.usesDevice = false := by
    rw [he]
    decide
  obtain ⟨hta, hma, hsame, hdelay, -⟩ := interleavings_agree ha hops hother hu
  rw [← hsame, hd] at hdelay
  exact ⟨he, hta.trans hticks, hma.trans hmoves, hsame, hdelay⟩

end Machine

end Chip8

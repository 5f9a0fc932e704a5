import SmallOs.Foundation.Run
import SmallOs.Kernel.Keyboard
import SmallOs.Kernel.Schedule
import SmallOs.Kernel.Syscall

/-! The kernel as a machine: the state at boot, and one step for every interrupt and system call. -/

namespace SmallOs

open Foundation

/-- A terminal record as `terminal_init` leaves it. -/
def initialTerminal (isOpen : Bool) : InitTerminal :=
  { isOpen
    screenX := 0
    screenY := 0
    cursorX := 0
    cursorY := 0
    buf := fun _ => 0
    bufIndex := 0
    curPcb := 0
    currentEbp := 0
    currentEsp := 0
    firstProcess := false
    currentPid := 0
    readFlag := false
    fish := false }

/-- The keyboard's variables as `ini_keyboard` leaves them. -/
def initialKeyboard : Keyboard :=
  { capsLockFlags := false
    shiftFlags := false
    ctrlFlags := false
    altFlags := false
    keyboardbuf := fun _ => 0
    bufIndex := 0
    count := 0
    vdX := 0
    vdY := 0
    enterFlag := false }

/-- The state after the initialisation in `entry`, before its first `execute`. -/
def initialKernel (env : Env) : Kernel :=
  { terminals := fun t => initialTerminal (t = 0)
    currentId := 0
    currTerminal := 0
    nextTerminal := 0
    -- No slot is taken, and no control block has been written yet.
    processArray := fun _ => 0
    pcbs := env.pcbMemory
    currentPcb := 0
    keyboard := initialKeyboard
    console := ⟨0, 0, clearScreen env.videoMemory, 0⟩
    switch := ⟨0, 0, 0, 0, 0, fun _ => 0⟩
    pageDirectory := initialDirectory env.tableAddr
    firstPageTable := initialTable
    tss := ⟨size8MB, kernelDs⟩
    frames := env.frameMemory
    dirReadLoc := 0
    rtcInterruptFlag := false
    rtcRegisterA := 0x2F }

/-- The stack of `entry`, on which the first shell is started. -/
def bootFrame : CallFrame :=
  ⟨size8MB, size8MB, fun _ => 0⟩

/-- `entry`: the machine is up once the first shell has been entered. -/
def boot (env : Env) : Option Kernel :=
  -- The entry code does not test whether its shell was found.
  match execute env (initialKernel env) bootFrame (some shell) with
  | some (.entered _, s) => some s
  | _ => none

/--
One interrupt or system call, run to completion.

A first opening of a terminal is the key press that marks it open, and then the call of `execute`
for its shell: interrupts are enabled between the two.
-/
inductive Event where
  /-- A keyboard interrupt, with the scan code at the port. -/
  | keyboard (scancode : Byte)
  /-- A timer interrupt, with the registers of the interrupted kernel thread. -/
  | pit (esp ebp : Nat)
  /-- A clock interrupt. -/
  | rtc
  /-- A system call, or the kernel's own call of `execute`. -/
  | call (frame : CallFrame) (request : Call)

/--
One step of the kernel, where `none` means that it hangs, waits, or has no defined result.

A key is taken if it keeps to the buffers and the screen, and a call if what it stores lies in its
caller's page.
-/
def step (env : Env) (s : Kernel) : Event → Option Kernel
  | .keyboard scancode =>
    if KeyDefined s (pressAction s.keyboard scancode) then some (printKeyboard s scancode) else none
  | .pit esp ebp => some (pitHandler s esp ebp)
  | .rtc => some { s with rtcInterruptFlag := false }
  | .call frame request =>
    (syscall env s frame request).bind fun result => result.commit s request

section Steps

variable {env : Env} {s next : Kernel}

/-- A key that is taken is defined, and does what `print_keyboard` does. -/
theorem key_taken {scancode : Byte} (taken : step env s (.keyboard scancode) = some next) :
    KeyDefined s (pressAction s.keyboard scancode) ∧ next = printKeyboard s scancode := by
  -- The step has one branch with a result.
  simp only [step] at taken
  split at taken
  · rename_i defined
    exact ⟨defined, (Option.some.inj taken).symm⟩
  · cases taken

theorem step_key {scancode : Byte} (defined : KeyDefined s (pressAction s.keyboard scancode)) :
    step env s (.keyboard scancode) = some (printKeyboard s scancode) :=
  if_pos defined

/-- What a call stores is seen in the user page only. -/
theorem commit_frames {result : CallResult} {request : Call}
    (committed : result.commit s request = some next) :
    ∃ frames, AgreeOutside (userFrame s) 0x400000 result.kernel.frames frames ∧
      next = { result.kernel with frames := frames } := by
  unfold CallResult.commit at committed
  -- Nothing was stored, or the bytes were put into the user page.
  split at committed
  · obtain rfl := Option.some.inj committed
    exact ⟨result.kernel.frames, .refl _, rfl⟩
  · split at committed
    · rename_i inside
      refine ⟨_, fun address outside => ?_, (Option.some.inj committed).symm⟩
      rw [storeAll_storesFrom]
      -- An address outside the page is in front of the bytes, or behind the last one.
      split
      · exact List.getD_eq_default _ _ (by omega)
      · rfl
    · cases committed
  · cases committed

/-- A call that is taken has a result, and leaves its state but for the bytes it stored. -/
theorem call_taken {frame : CallFrame} {request : Call}
    (taken : step env s (.call frame request) = some next) :
    ∃ result frames, syscall env s frame request = some result ∧
      AgreeOutside (userFrame s) 0x400000 result.kernel.frames frames ∧
      next = { result.kernel with frames := frames } := by
  obtain ⟨result, done, committed⟩ := Option.bind_eq_some_iff.mp taken
  obtain ⟨frames, agree, same⟩ := commit_frames committed
  exact ⟨result, frames, done, agree, same⟩

/-- A call that stores nothing leaves the state of its result. -/
theorem step_nothing {frame : CallFrame} {request : Call} {result : CallResult}
    (done : syscall env s frame request = some result) (nothing : result.stores = []) :
    step env s (.call frame request) = some result.kernel := by
  simp only [step, done, Option.bind_some, CallResult.commit]
  rw [nothing]

/-- A call that stores inside the user page leaves its bytes there. -/
theorem step_stored {frame : CallFrame} {request : Call} {result : CallResult} {buf : Nat}
    (done : syscall env s frame request = some result) (pointer : request.pointer = some buf)
    (inside : 0x08000000 ≤ buf ∧ buf + result.stores.length ≤ 0x08000000 + 0x00400000) :
    step env s (.call frame request) = some (result.stored s buf) := by
  obtain ⟨outcome, stores, kernel⟩ := result
  simp only [step, done, Option.bind_some, CallResult.commit, pointer]
  cases stores with
  | nil => rfl
  | cons => exact if_pos inside

/-- A call without a pointer leaves the state of its result. -/
theorem call_taken_plain {frame : CallFrame} {request : Call} (none : request.pointer = none)
    (taken : step env s (.call frame request) = some next) :
    ∃ result, syscall env s frame request = some result ∧ next = result.kernel := by
  obtain ⟨result, done, committed⟩ := Option.bind_eq_some_iff.mp taken
  unfold CallResult.commit at committed
  -- Without a pointer there is no place for a byte.
  split at committed
  · exact ⟨result, done, (Option.some.inj committed).symm⟩
  · rename_i pointer
    rw [none] at pointer
    cases pointer
  · cases committed

/-- A call of `halt` that is taken leaves the state `halt` leaves. -/
theorem halt_taken {frame : CallFrame} {status : Byte}
    (taken : step env s (.call frame (.halt status)) = some next) :
    ∃ outcome, halt env s frame = some (outcome, next) := by
  obtain ⟨result, done, rfl⟩ := call_taken_plain rfl taken
  obtain ⟨⟨outcome, after⟩, ended, rfl⟩ := Option.map_eq_some_iff.mp done
  exact ⟨outcome, ended⟩

/-- A call of `execute` that is taken leaves the state `execute` leaves. -/
theorem execute_taken {frame : CallFrame} {command : Option (List Byte)}
    (taken : step env s (.call frame (.execute command)) = some next) :
    ∃ outcome, execute env s frame command = some (outcome, next) := by
  obtain ⟨result, done, rfl⟩ := call_taken_plain rfl taken
  obtain ⟨⟨outcome, after⟩, executed, rfl⟩ := Option.map_eq_some_iff.mp done
  exact ⟨outcome, executed⟩

theorem step_halt {frame : CallFrame} {outcome : Outcome} (status : Byte)
    (ended : halt env s frame = some (outcome, next)) :
    step env s (.call frame (.halt status)) = some next := by
  have done : syscall env s frame (.halt status) = some ⟨outcome, [], next⟩ := by
    simp only [syscall, ended, Option.map_some]
  exact step_nothing done rfl

theorem step_execute {frame : CallFrame} {command : Option (List Byte)} {outcome : Outcome}
    (executed : execute env s frame command = some (outcome, next)) :
    step env s (.call frame (.execute command)) = some next := by
  have done : syscall env s frame (.execute command) = some ⟨outcome, [], next⟩ := by
    simp only [syscall, executed, Option.map_some]
  exact step_nothing done rfl

end Steps

/-- What happens next on the processor: a step of the kernel, or a store through the user page. -/
inductive Action where
  | event (event : Event)
  /-- The running program, or the kernel on its behalf, stores one byte of its page. -/
  | store (offset : Nat) (value : Byte)

/-- One action, where the user page has four megabytes. -/
def act (env : Env) (s : Kernel) : Action → Option Kernel
  | .event event => step env s event
  | .store offset value =>
    if offset < 0x400000 then
      some { s with frames := Function.update s.frames (userFrame s + offset) value }
    else none

/-- The states some run of the booted machine reaches. -/
def Reachable (env : Env) (s : Kernel) : Prop :=
  ∃ start labels, boot env = some start ∧ Run (step env) Always start labels s

/-- A property of the booted state that every step keeps holds of every reachable state. -/
theorem Reachable.invariant {env : Env} {s : Kernel} (reach : Reachable env s)
    (holds : Kernel → Prop) (base : ∀ start, boot env = some start → holds start)
    (kept : ∀ before event after, holds before → step env before event = some after →
      holds after) : holds s := by
  obtain ⟨start, labels, booted, run⟩ := reach
  exact run.invariant holds (base start booted) fun _ _ _ held _ taken => kept _ _ _ held taken

/-- One more step stays within the reachable states. -/
theorem Reachable.step {env : Env} {s next : Kernel} {event : Event} (reach : Reachable env s)
    (taken : step env s event = some next) : Reachable env next := by
  obtain ⟨start, labels, booted, run⟩ := reach
  exact ⟨start, labels ++ [event], booted, run.snoc trivial taken⟩

end SmallOs

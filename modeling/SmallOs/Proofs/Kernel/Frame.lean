import SmallOs.Abstract.Processes

/-! What interrupts and drivers leave alone: the frame of every transition outside `execute` and `halt`. -/

namespace SmallOs

open Foundation

/-- The devices of one state under everything else of another. -/
def Kernel.withDevices (s devices : Kernel) : Kernel :=
  { s with
    console := devices.console
    keyboard := devices.keyboard
    switch := devices.switch }

/-- The second state differs from the first in the console, the keyboard, and the switch statics only. -/
def DeviceOnly (s next : Kernel) : Prop :=
  next = s.withDevices next

namespace DeviceOnly

variable {s middle next : Kernel}

theorem refl (s : Kernel) : DeviceOnly s s := rfl

theorem trans (first : DeviceOnly s middle) (second : DeviceOnly middle next) :
    DeviceOnly s next := by
  -- The devices of the middle state are replaced by the second change.
  unfold DeviceOnly at *
  rw [first] at second
  exact second

/-- Whatever does not read the devices is the same in both states. -/
theorem agree {α : Type} (same : DeviceOnly s next) (read : Kernel → α)
    (ignores : ∀ devices, read (s.withDevices devices) = read s) : read next = read s := by
  rw [same]
  exact ignores next

theorem terminals (same : DeviceOnly s next) : next.terminals = s.terminals :=
  same.agree Kernel.terminals fun _ => rfl

theorem currentId (same : DeviceOnly s next) : next.currentId = s.currentId :=
  same.agree Kernel.currentId fun _ => rfl

theorem currTerminal (same : DeviceOnly s next) : next.currTerminal = s.currTerminal :=
  same.agree Kernel.currTerminal fun _ => rfl

theorem displayed (same : DeviceOnly s next) : next.displayed = s.displayed :=
  same.agree Kernel.displayed fun _ => rfl

theorem processArray (same : DeviceOnly s next) : next.processArray = s.processArray :=
  same.agree Kernel.processArray fun _ => rfl

theorem pcbs (same : DeviceOnly s next) : next.pcbs = s.pcbs :=
  same.agree Kernel.pcbs fun _ => rfl

theorem currentPcb (same : DeviceOnly s next) : next.currentPcb = s.currentPcb :=
  same.agree Kernel.currentPcb fun _ => rfl

theorem processes (same : DeviceOnly s next) : next.processes = s.processes :=
  same.agree Kernel.processes fun _ => rfl

theorem setConsole (same : DeviceOnly s next) (change : Console → Console) :
    DeviceOnly s (next.setConsole change) :=
  same.trans rfl

theorem setKeyboard (same : DeviceOnly s next) (change : Keyboard → Keyboard) :
    DeviceOnly s (next.setKeyboard change) :=
  same.trans rfl

theorem setSwitch (same : DeviceOnly s next) (change : SwitchStatics → SwitchStatics) :
    DeviceOnly s (next.setSwitch change) :=
  same.trans rfl

theorem resetPosition (same : DeviceOnly s next) (x y : Int) :
    DeviceOnly s (resetPosition next x y) :=
  (same.setSwitch _).setConsole _

theorem resetCursor (same : DeviceOnly s next) (x y : Int) :
    DeviceOnly s (resetCursor next x y) :=
  (same.setSwitch _).setConsole _

theorem scrolled (same : DeviceOnly s next) : DeviceOnly s (clearRow (resetVideo next)) :=
  (same.setConsole _).setConsole _

theorem blankCell (same : DeviceOnly s next) : DeviceOnly s (blankCell next) :=
  same.setConsole _

theorem publishPosition (same : DeviceOnly s next) : DeviceOnly s (publishPosition next) :=
  ((same.setKeyboard _).resetPosition _ _).resetCursor _ _

end DeviceOnly

section Devices

variable (s : Kernel)

theorem deviceOnly_putc (c : Byte) : DeviceOnly s (putc s c) := by
  unfold putc
  -- A newline on the last row scrolls the page, and any other character moves on.
  split
  · split
    · exact (((DeviceOnly.refl s).setKeyboard _).setConsole _).scrolled.publishPosition
    · exact ((DeviceOnly.refl s).setConsole _).publishPosition
  · exact ((DeviceOnly.refl s).setConsole _).publishPosition

theorem deviceOnly_putText (text : List Byte) : DeviceOnly s (putText s text) := by
  -- The text is printed one character after another.
  induction text generalizing s with
  | nil => rfl
  | cons c text ih => exact (deviceOnly_putc s c).trans (ih (putc s c))

theorem deviceOnly_prout (c : Byte) : DeviceOnly s (prout s c) := by
  -- Both branches store the character, print it, and set positions.
  have typed : DeviceOnly s (putc (storeTyped s c) c) :=
    ((DeviceOnly.refl s).setKeyboard _).trans (deviceOnly_putc _ c)
  unfold prout
  split
  · exact (DeviceOnly.refl s).resetCursor _ _
  · simp only
    split
    · split
      · exact (((typed.setKeyboard _).scrolled).resetPosition _ _).resetCursor _ _
      · exact ((typed.setKeyboard _).resetPosition _ _).resetCursor _ _
    · exact (typed.setKeyboard _).resetCursor _ _

theorem deviceOnly_dropTyped : DeviceOnly s (dropTyped s) := by
  unfold dropTyped
  split
  · exact (DeviceOnly.refl s).setKeyboard _
  · rfl

theorem deviceOnly_stepUp : DeviceOnly s (stepUp s) :=
  (DeviceOnly.refl s).setConsole _

theorem deviceOnly_stepLeft : DeviceOnly s (stepLeft s) :=
  (DeviceOnly.refl s).setConsole _

theorem deviceOnly_backspace : DeviceOnly s (backspace s) := by
  -- Three tests leave the state alone, and both erasing branches end the same way.
  have erased : ∀ move : Keyboard → Keyboard, ∀ m : Kernel, DeviceOnly s m → ∀ x y u v : Int,
      DeviceOnly s (resetCursor (resetPosition (m.setKeyboard move) x y) u v) :=
    fun move _ blanked _ _ _ _ => ((blanked.setKeyboard move).resetPosition _ _).resetCursor _ _
  have above : DeviceOnly s (putUpbackspace s) := (deviceOnly_stepUp s).blankCell
  have left : DeviceOnly s (putBackspace s) := (deviceOnly_stepLeft s).blankCell
  unfold backspace
  split
  · rfl
  split
  · rfl
  split
  · rfl
  split
  · exact (erased _ _ above _ _ _ _).trans (deviceOnly_dropTyped _)
  · exact (erased _ _ left _ _ _ _).trans (deviceOnly_dropTyped _)

theorem deviceOnly_nextLine : DeviceOnly s (nextLine s) := by
  unfold nextLine
  split
  · exact (((DeviceOnly.refl s).setKeyboard _).resetCursor _ _).setKeyboard _
  · -- The page is scrolled unless printing the newline already did it.
    have scrolled : DeviceOnly s (if s.keyboard.enterFlag then s else clearRow (resetVideo s)) := by
      split
      · exact DeviceOnly.refl s
      · exact (DeviceOnly.refl s).scrolled
    exact (((scrolled.setKeyboard _).resetCursor _ _).resetPosition _ _).setKeyboard _

theorem deviceOnly_clear : DeviceOnly s (clear s) :=
  (DeviceOnly.refl s).setConsole _

theorem deviceOnly_clearKey : DeviceOnly s (clearKey s) := by
  -- The page is cleared, and every position goes back to the start.
  unfold clearKey
  exact (((deviceOnly_clear s).resetCursor _ _).resetPosition _ _).setKeyboard _

end Devices

/-- A terminal's record with the slot of another one. -/
def InitTerminal.withSlot (term : InitTerminal) (slot : Slot) : InitTerminal :=
  { term with
    curPcb := slot.curPcb
    firstProcess := slot.firstProcess
    currentPid := slot.currentPid
    currentEsp := slot.currentEsp
    currentEbp := slot.currentEbp }

/-- The devices, the displayed terminal, and the terminals' screens and lines of one state under everything else of another. -/
def Kernel.withScreens (s screens : Kernel) : Kernel :=
  { s.withDevices screens with
    currentId := screens.currentId
    terminals := fun t => (screens.terminals t).withSlot (s.terminals t).slot }

/-- The second state differs from the first in what the user sees and types only. -/
def ScreenOnly (s next : Kernel) : Prop :=
  next = s.withScreens next

theorem DeviceOnly.screenOnly {s next : Kernel} (same : DeviceOnly s next) : ScreenOnly s next := by
  -- A record that is unchanged has the slot it had.
  unfold ScreenOnly Kernel.withScreens
  rw [same.terminals, same.currentId]
  exact same

namespace ScreenOnly

variable {s middle next : Kernel}

theorem refl (s : Kernel) : ScreenOnly s s := rfl

theorem trans (first : ScreenOnly s middle) (second : ScreenOnly middle next) :
    ScreenOnly s next := by
  -- Only the slots of the middle state survive, and they are those of the first.
  unfold ScreenOnly at *
  rw [first] at second
  exact second

/-- Whatever does not read screens and lines is the same in both states. -/
theorem agree {α : Type} (same : ScreenOnly s next) (read : Kernel → α)
    (ignores : ∀ screens, read (s.withScreens screens) = read s) : read next = read s := by
  rw [same]
  exact ignores next

theorem processes (same : ScreenOnly s next) : next.processes = s.processes :=
  same.agree Kernel.processes fun _ => rfl

theorem setConsole (same : ScreenOnly s next) (change : Console → Console) :
    ScreenOnly s (next.setConsole change) :=
  same.trans rfl

theorem setKeyboard (same : ScreenOnly s next) (change : Keyboard → Keyboard) :
    ScreenOnly s (next.setKeyboard change) :=
  same.trans rfl

theorem setSwitch (same : ScreenOnly s next) (change : SwitchStatics → SwitchStatics) :
    ScreenOnly s (next.setSwitch change) :=
  same.trans rfl

theorem display (same : ScreenOnly s next) (t : Terminal) : ScreenOnly s (next.display t) :=
  same.trans rfl

theorem resetPosition (same : ScreenOnly s next) (x y : Int) :
    ScreenOnly s (resetPosition next x y) :=
  (same.setSwitch _).setConsole _

theorem resetCursor (same : ScreenOnly s next) (x y : Int) :
    ScreenOnly s (resetCursor next x y) :=
  (same.setSwitch _).setConsole _

/-- Changing a terminal's record outside its slot is such a change. -/
theorem setTerminal (same : ScreenOnly s next) (t : Terminal)
    {change : InitTerminal → InitTerminal}
    (outside : ∀ term, (change term).slot = term.slot) :
    ScreenOnly s (next.setTerminal t change) := by
  refine same.trans ?_
  -- The changed record keeps its slot, and every other record is as it was.
  have records : (next.setTerminal t change).terminals =
      fun u => ((next.setTerminal t change).terminals u).withSlot (next.terminals u).slot := by
    funext u
    by_cases here : u = t
    · subst here
      simp only [Kernel.setTerminal, Function.update_self]
      rw [← outside]
      rfl
    · simp only [Kernel.setTerminal, Function.update_of_ne here]
      rfl
  unfold ScreenOnly Kernel.withScreens
  rw [← records]
  rfl

end ScreenOnly

section Screens

variable (s : Kernel)

/-- The background output routine changes only positions and the screen. -/
theorem screenOnly_putm (c : Byte) : ScreenOnly s (putm s c) := by
  -- Each branch changes one record outside its slot, and then only devices.
  unfold putm
  simp only
  split
  · split
    · exact (((ScreenOnly.refl s).setKeyboard _).setTerminal _ fun _ => by rfl).setConsole _
    · exact (ScreenOnly.refl s).setTerminal _ fun _ => by rfl
  · exact ((ScreenOnly.refl s).setConsole _).setTerminal _ fun _ => by rfl

/-- Enter hands the line over without touching a process. -/
theorem screenOnly_enterKey : ScreenOnly s (enterKey s) := by
  -- The line is printed, copied into one record, and the keyboard is reset.
  have copied : ScreenOnly s (copyToTeminal (prout s 0x0A) (prout s 0x0A).keyboard.keyboardbuf
      (prout s 0x0A).keyboard.bufIndex) :=
    (deviceOnly_prout s 0x0A).screenOnly.setTerminal _ fun _ => by rfl
  exact (copied.setKeyboard _).trans (deviceOnly_nextLine _).screenOnly

/-- Saving the displayed terminal touches no process. -/
theorem screenOnly_saveTerminal : ScreenOnly s (saveTerminal s) := by
  unfold saveTerminal clearbufferindex clearbuffuer
  exact (((((ScreenOnly.refl s).setSwitch _).setTerminal _ fun _ => by rfl).setConsole
    _).setKeyboard _).setKeyboard _

/-- Displaying a terminal again touches no process. -/
theorem screenOnly_showPage : ScreenOnly s (showPage s) :=
  (((ScreenOnly.refl s).setConsole _).resetCursor _ _).resetPosition _ _

theorem screenOnly_restoreTerminal (t : Terminal) : ScreenOnly s (restoreTerminal s t) :=
  ((((ScreenOnly.refl s).display t).setSwitch _).setKeyboard _).trans (screenOnly_showPage _)

/-- Opening a terminal, up to its shell, touches no process. -/
theorem screenOnly_openTerminal (t : Terminal) : ScreenOnly s (openTerminal s t) := by
  -- One record is marked open, and the screen and the positions are reset.
  unfold openTerminal clear
  exact ((((((ScreenOnly.refl s).setTerminal _ fun _ => by rfl).setConsole _).resetPosition _
    _).resetCursor _ _).display t).setSwitch _

/-- A terminal switch touches no process. -/
theorem screenOnly_switchToTerminal (t : Terminal) (digit : Byte) :
    ScreenOnly s (switchToTerminal t digit s) := by
  unfold switchToTerminal
  -- The displayed terminal is only named, and a closed one is opened.
  split
  · exact (deviceOnly_putText _ _).screenOnly
  · simp only
    split
    · exact (screenOnly_saveTerminal s).trans (screenOnly_restoreTerminal _ t)
    · exact (screenOnly_saveTerminal s).trans (screenOnly_openTerminal _ t)

theorem screenOnly_switchToTerminal1 : ScreenOnly s (switchToTerminal1 s) := by
  unfold switchToTerminal1 copyToKeyboardBuf loadStatics
  -- The first terminal is never opened by its key, since the boot code did that.
  split
  · exact (deviceOnly_putText _ _).screenOnly
  · exact (((((screenOnly_saveTerminal s).display 0).setSwitch _).trans
      (screenOnly_showPage _))).setKeyboard _

/-- A function key touches no process. -/
theorem screenOnly_displayKey (t : Terminal) : ScreenOnly s (displayKey s t) := by
  -- The first terminal has a routine of its own, and the other two share one.
  have copied := (ScreenOnly.refl s).setSwitch fun sw =>
    { sw with kbbuf := fun i =>
        if i < s.keyboard.bufIndex then s.keyboard.keyboardbuf i else sw.kbbuf i }
  unfold displayKey
  match t with
  | 0 => exact copied.trans (screenOnly_switchToTerminal1 _)
  | 1 => exact copied.trans (screenOnly_switchToTerminal _ 1 0x32)
  | 2 => exact copied.trans (screenOnly_switchToTerminal _ 2 0x33)

/-- Whatever a key press asks for touches no process. -/
theorem screenOnly_performKey (action : KeyAction) : ScreenOnly s (performKey s action) := by
  -- Each action has its lemma above.
  cases action with
  | char c => exact (deviceOnly_prout s c).screenOnly
  | backspace => exact (deviceOnly_backspace s).screenOnly
  | enter => exact screenOnly_enterKey s
  | clear => exact (deviceOnly_clearKey s).screenOnly
  | display t => exact screenOnly_displayKey s t
  | nothing => exact ScreenOnly.refl s

/-- The keyboard interrupt touches no process. -/
theorem screenOnly_printKeyboard (c : Byte) : ScreenOnly s (printKeyboard s c) := by
  have released := (ScreenOnly.refl s).setKeyboard fun kb => releaseFlags kb c
  unfold printKeyboard
  simp only
  -- A release changes flags only, and a press does what its key asks for.
  split
  · exact released
  · exact (released.setKeyboard _).trans (screenOnly_performKey _ _)

/-- Writing to a terminal touches no process. -/
theorem screenOnly_terminalWrite (buf : List Byte) (nbytes : Int) :
    ScreenOnly s (terminalWrite s buf nbytes).2 := by
  -- One of the two output routines is folded over the text.
  have background : ∀ text : List Byte, ∀ s : Kernel, ScreenOnly s (text.foldl putm s) := by
    intro text
    induction text with
    | nil => exact ScreenOnly.refl
    | cons c text ih => exact fun s => (screenOnly_putm s c).trans (ih _)
  unfold terminalWrite
  simp only
  split
  · exact (deviceOnly_putText s _).screenOnly
  · exact background _ s

/-- Taking a line touches no process. -/
theorem screenOnly_takeLine : ScreenOnly s (takeLine s).kernel := by
  unfold takeLine clearBuf
  -- The line is cleared by one store into the record, and the flag by another.
  simp only
  exact ((ScreenOnly.refl s).setTerminal _ fun _ => by rfl).setTerminal _ fun _ => by rfl

/-- The name of a program changes at most a page and a flag. -/
theorem screenOnly_markFish (fileName : List Byte) : ScreenOnly s (markFish s fileName) := by
  unfold markFish
  split
  · exact ((ScreenOnly.refl s).setConsole _).setTerminal _ fun _ => by rfl
  · exact ScreenOnly.refl s

/-- The refresh of a terminal that runs `fish` copies a page to the screen. -/
theorem screenOnly_refreshFish : ScreenOnly s (refreshFish s) := by
  unfold refreshFish
  split
  · exact (ScreenOnly.refl s).setConsole _
  · exact ScreenOnly.refl s

end Screens

/--
What an interrupt or a call does when it neither starts, ends, nor switches a process.

Each case changes one part of the kernel, and everything else is left as it was.
-/
inductive Quiet (s : Kernel) : Kernel → Prop where
  /-- Screens and lines. -/
  | screens {next : Kernel} (same : ScreenOnly s next) : Quiet s next
  /-- The clock. -/
  | clock (flag : Bool) (rate : Nat) :
      Quiet s { s with rtcInterruptFlag := flag, rtcRegisterA := rate }
  /-- The place in the directory listing. -/
  | listing (loc : Nat) : Quiet s { s with dirReadLoc := loc }
  /-- One descriptor of the scheduled process. -/
  | descriptor (i : Nat) (change : FileDescriptor → FileDescriptor) :
      Quiet s (setDescriptor s i change)
  /-- The user's view of the screen. -/
  | view (table page : Nat) : Quiet s (mapToVid s table page)
  /-- Besides one of these, the memory of the running process. -/
  | stored {next : Kernel} (quiet : Quiet s next) {frames : Nat → Byte}
      (agree : AgreeOutside (userFrame s) 0x400000 next.frames frames) :
      Quiet s { next with frames := frames }

/-- Changing a control block outside its identity changes no process. -/
theorem processes_setPcb (s : Kernel) (address : Nat) {change : Pcb → Pcb}
    (outside : ∀ pcb, (change pcb).block = pcb.block) :
    (s.setPcb address change).processes = s.processes := by
  -- The identity of a block is compared at every address, changed or not.
  have blocks : ∀ a, ((s.setPcb address change).pcbs a).block = (s.pcbs a).block := by
    intro a
    by_cases same : a = address
    · subst same
      simp [Kernel.setPcb, outside]
    · simp [Kernel.setPcb, same]
  simp only [Kernel.processes, blocks]
  rfl

namespace Quiet

variable {s next : Kernel}

theorem refl (s : Kernel) : Quiet s s :=
  .screens (ScreenOnly.refl s)

/-- No quiet change touches a process. -/
theorem processes (quiet : Quiet s next) : next.processes = s.processes := by
  induction quiet with
  | screens same => exact same.processes
  | clock | listing => rfl
  | descriptor i change => exact processes_setPcb s _ fun _ => by rfl
  | view table page => simp [Kernel.processes, mapToVid, userPde, vidPde]
  | stored _ _ ih => exact ih

theorem tss (quiet : Quiet s next) : next.tss = s.tss := by
  induction quiet with
  | screens same => exact same.agree Kernel.tss fun _ => rfl
  | clock | listing | descriptor | view => rfl
  | stored _ _ ih => exact ih

/-- Only the memory of the running process is ever stored to. -/
theorem frames (quiet : Quiet s next) :
    AgreeOutside (userFrame s) 0x400000 s.frames next.frames := by
  induction quiet with
  | screens same =>
    have kept := same.agree Kernel.frames fun _ => rfl
    exact kept ▸ .refl _
  | clock | listing | descriptor | view => exact .refl _
  | stored _ agree ih => exact ih.trans agree

theorem currentPcb (quiet : Quiet s next) : next.currentPcb = s.currentPcb := by
  induction quiet with
  | screens same => exact same.agree Kernel.currentPcb fun _ => rfl
  | clock | listing | descriptor | view => rfl
  | stored _ _ ih => exact ih

/-- Only the control block of the scheduled process is ever changed. -/
theorem pcbs (quiet : Quiet s next) {address : Nat} (other : address ≠ s.scheduled.curPcb) :
    next.pcbs address = s.pcbs address := by
  induction quiet with
  | screens same => exact same.agree (fun k => k.pcbs address) fun _ => rfl
  | clock | listing | view => rfl
  | descriptor i change => simp [setDescriptor, Kernel.setPcb, other]
  | stored _ _ ih => exact ih

end Quiet

/-- The same processes run in the same slot. -/
theorem scheduled_slot {s next : Kernel} (same : next.processes = s.processes) :
    next.scheduled.slot = s.scheduled.slot := by
  have slots := congrArg (fun ps => ps.slots s.currTerminal) same
  have running : next.currTerminal = s.currTerminal := congrArg Processes.running same
  unfold Kernel.scheduled
  rw [running]
  exact slots

end SmallOs

import SmallOs.Abstract.Requests
import SmallOs.Kernel.Delivery
import SmallOs.Proofs.Kernel.Gates
import SmallOs.Proofs.Kernel.InterruptController

/-! Every request of a device is delivered to its handler, once, and in order of priority. -/

namespace SmallOs

open Foundation Foundation.I386 Foundation.I8259

/-- The line of a device. -/
def Irq.line : Irq → Fin 16
  | .pit => 0
  | .keyboard => 1
  | .rtc => 8

/-- The lines of the devices, in order of their priority. -/
def deviceLines : List (Fin 16) := [0, 1, 8]

/-- The vector of a device. -/
def Irq.vector (irq : Irq) : BitVec 8 :=
  BitVec.ofNat 8 (0x20 + irq.line.val)

/-- The entry stub of a device. -/
def Irq.entry : Irq → Handler
  | .keyboard => .keyboardInterrupt
  | .rtc => .rtcInterrupt
  | .pit => .pitInterrupt

/-- A line is enabled where both controllers let it through. -/
def Pic.enabled (p : Pic) (i : Fin 16) : Bool :=
  !p.masked i && (i.val < 8 || !p.masked 2)

/-- What the controllers have in service while a line is served. -/
def Irq.inService : Irq → BitVec 8 × BitVec 8
  | .pit => (bit 0, 0)
  | .keyboard => (bit 1, 0)
  | .rtc => (bit 2, bit 0)

/-- What the controllers have in service. -/
def service (pair : Pair) : BitVec 8 × BitVec 8 :=
  (pair.master.service, pair.slave.service)

/-- The controllers as `i8259_init` programs them, with the masks of the kernel. -/
structure Programmed (p : Pic) (pair : Pair) : Prop where
  master : pair.master.expects = .mask ∧ pair.master.vectors = 0x20 ∧ pair.master.cascade = 0x04 ∧
    pair.master.mode = 0x01 ∧ pair.master.mask = p.masterMask
  slave : pair.slave.expects = .mask ∧ pair.slave.vectors = 0x28 ∧ pair.slave.cascade = 0x02 ∧
    pair.slave.mode = 0x01 ∧ pair.slave.mask = p.slaveMask
  /-- No device is on the line of the second controller. -/
  cascade : pair.latched 2 = false

section Writes

variable (pair : Pair) (p : Pic)

/-- The ports are told these words, one after the other. -/
theorem i8259Init_ports : (i8259Init p).ports =
    (i8259InitWrites.foldl (fun p write => p.outb (write.2.setWidth 32) write.1) p).ports := rfl

theorem writeMasks_ports : p.writeMasks.ports =
    ((maskWrites p).foldl (fun p write => p.outb (write.2.setWidth 32) write.1) p).ports := rfl

/-- `i8259_init` leaves nothing of what the controllers were before. -/
theorem hear_init : Programmed (i8259Init p) (hear pair i8259InitWrites) ∧
    service (hear pair i8259InitWrites) = (0, 0) ∧
    (hear pair i8259InitWrites).latched = fun _ => false := by
  -- The first word of the sequence clears the requests, whatever was there.
  have nothing : (hear pair i8259InitWrites).latched = fun _ => false := by
    funext i
    have master : (hear pair i8259InitWrites).master.requests = 0 := rfl
    have slave : (hear pair i8259InitWrites).slave.requests = 0 := rfl
    unfold Pair.latched
    rw [master, slave]
    simp
  exact ⟨⟨⟨rfl, rfl, rfl, rfl, rfl⟩, ⟨rfl, rfl, rfl, rfl, rfl⟩, congrFun nothing 2⟩, rfl, nothing⟩

/-- Both controllers take the masks. -/
theorem hear_masks (master : pair.master.expects = .mask) (slave : pair.slave.expects = .mask) :
    hear pair (maskWrites p) =
      ⟨{ pair.master with mask := p.masterMask }, { pair.slave with mask := p.slaveMask }⟩ := by
  simp [hear, maskWrites, Pair.write, master8259PortData, slave8259PortData, master8259Port,
    slave8259Port, Chip.data, master, slave]

/-- A line of the second controller ends at both of them. -/
theorem hear_eoi (irq : Irq) : hear pair (sendEoi (BitVec.ofNat 32 irq.line.val)) =
    if irq = .rtc then ⟨pair.master.finish 2, pair.slave.finish 0⟩
    else { pair with master := pair.master.finish (Fin.ofNat 8 irq.line.val) } := by
  cases irq <;> rfl

end Writes

section Requests

variable (pair : Pair)

/-- A device that raises its line waits for it. -/
theorem latched_raise (i : Fin 16) : (pair.raise i).latched =
    if i = 2 then pair.latched else Requests.ask pair.latched i := by
  -- The line is a bit of one of the two controllers, and every other bit is as it was.
  funext j
  have small := j.isLt
  by_cases between : i = 2
  · subst between
    rfl
  rw [if_neg between]
  have line : i.val ≠ Pair.cascadeLine.val := fun same => between (Fin.ext same)
  have same : j = i ↔ j.val = i.val := Fin.ext_iff
  unfold Pair.raise Pair.latched Requests.ask
  rw [Function.update_apply]
  by_cases master : i.val < 8
  · rw [if_pos master, if_neg line]
    by_cases low : j.val < 8
    · have place : (Fin.ofNat 8 i.val).val = i.val := Nat.mod_eq_of_lt master
      simp only [if_pos low, Chip.raise, BitVec.getLsbD_or, getLsbD_bit, place]
      grind
    · simp only [if_neg low]
      grind
  · rw [if_neg master]
    by_cases low : j.val < 8
    · simp only [if_pos low]
      grind
    · have place : (Fin.ofNat 8 i.val).val = i.val - 8 := by
        simp only [Fin.ofNat]
        omega
      simp only [if_neg low, Chip.raise, BitVec.getLsbD_or, getLsbD_bit, place]
      grind

/-- A device changes nothing but requests. -/
theorem raise_parts (i : Fin 16) : ∃ master slave : BitVec 8, pair.raise i =
    ⟨{ pair.master with requests := master }, { pair.slave with requests := slave }⟩ := by
  unfold Pair.raise
  split
  · split
    · exact ⟨_, _, rfl⟩
    · exact ⟨_, _, rfl⟩
  · exact ⟨_, _, rfl⟩

/-- The controllers once a line has been acknowledged. -/
def acknowledged (i : Fin 16) : Pair :=
  if i.val < 8 then { pair with master := pair.master.acknowledge (Fin.ofNat 8 i.val) }
  else ⟨pair.master.acknowledge Pair.cascadeLine, pair.slave.acknowledge (Fin.ofNat 8 i.val)⟩

/-- A line that was acknowledged waits no longer. -/
theorem latched_acknowledged (cascade : pair.latched 2 = false) (i : Fin 16) :
    (acknowledged pair i).latched = Requests.serve pair.latched i := by
  -- The bit is taken out of its own controller, and the cascade's was not set.
  funext j
  have small := j.isLt
  have same : j = i ↔ j.val = i.val := Fin.ext_iff
  have two : pair.master.requests.getLsbD 2 = false := cascade
  unfold acknowledged Pair.latched Requests.serve
  rw [Function.update_apply]
  by_cases master : i.val < 8
  · rw [if_pos master]
    by_cases low : j.val < 8
    · have place : (Fin.ofNat 8 i.val).val = i.val := Nat.mod_eq_of_lt master
      simp only [Chip.acknowledge, BitVec.getLsbD_and, BitVec.getLsbD_not, getLsbD_bit, place, low]
      grind
    · simp only [if_neg low]
      grind
  · rw [if_neg master]
    by_cases low : j.val < 8
    · simp only [Chip.acknowledge, BitVec.getLsbD_and, BitVec.getLsbD_not, getLsbD_bit, low]
      have cascadeLine : Pair.cascadeLine.val = 2 := rfl
      grind
    · have place : (Fin.ofNat 8 i.val).val = i.val - 8 := by
        simp only [Fin.ofNat]
        omega
      have upper : j.val - 8 < 8 := by omega
      simp only [if_neg low, Chip.acknowledge, BitVec.getLsbD_and, BitVec.getLsbD_not, getLsbD_bit,
        place, upper]
      grind

end Requests

section Idle

variable {p : Pic} {pair : Pair}

/-- The bits of the masks that stay set. -/
theorem masks_upper (lines : ∀ i, p.masked i = false → i = 2 ∨ i ∈ deviceLines) :
    (∀ k, 3 ≤ k → k < 8 → p.masterMask.getLsbD k = true) ∧
      ∀ k, 1 ≤ k → k < 8 → p.slaveMask.getLsbD k = true := by
  -- Only the cascade and the three devices are ever enabled.
  have none : ∀ i : Fin 16, i ≠ 2 → i ∉ deviceLines → p.masked i = true := by
    intro i between other
    cases masked : p.masked i with
    | true => rfl
    | false =>
      rcases lines i masked with same | member
      · exact absurd same between
      · exact absurd member other
  have few : ∀ i : Fin 16, i.val ≠ 0 → i.val ≠ 1 → i.val ≠ 2 → i.val ≠ 8 → p.masked i = true := by
    intro i zero one two eight
    refine none i (fun same => two (congrArg Fin.val same)) fun member => ?_
    simp only [deviceLines, List.mem_cons, List.not_mem_nil, or_false] at member
    rcases member with rfl | rfl | rfl
    · exact zero rfl
    · exact one rfl
    · exact eight rfl
  constructor
  · intro k lower upper
    have masked := few ⟨k, by omega⟩ (by simp only; omega) (by simp only; omega) (by simp only; omega)
      (by simp only; omega)
    simpa [Pic.masked, upper] using masked
  · intro k lower upper
    have masked := few ⟨k + 8, by omega⟩ (by simp only; omega) (by simp only; omega)
      (by simp only; omega) (by simp only; omega)
    simpa [Pic.masked] using masked

/-- The clock is the only device of the second controller. -/
theorem slave_next (programmed : Programmed p pair) (idle : pair.slave.service = 0)
    (upper : ∀ k, 1 ≤ k → k < 8 → p.slaveMask.getLsbD k = true) :
    pair.slave.next pair.slave.requests =
      if pair.latched 8 && !p.masked 8 then some 0 else none := by
  -- Of the lines that are let through only the first one can wait.
  obtain ⟨-, -, -, -, mask⟩ := programmed.slave
  have others : ∀ k, 1 ≤ k → k < 8 →
      (pair.slave.requests &&& ~~~pair.slave.mask).getLsbD k = false := by
    intro k lower small
    simp [mask, upper k lower small]
  have bit : (pair.slave.requests &&& ~~~pair.slave.mask).getLsbD 0 =
      (pair.latched 8 && !p.masked 8) := by
    rw [mask, BitVec.getLsbD_and, BitVec.getLsbD_not]
    rfl
  rw [Chip.next_idle idle, first_of_low fun k lower small => others k (by omega) small, bit,
    others 1 (by decide) (by decide), others 2 (by decide) (by decide)]
  rfl

/-- The first controller takes the timer and the keyboard before the second controller. -/
theorem master_next (programmed : Programmed p pair) (idle : service pair = (0, 0))
    (lines : ∀ i, p.masked i = false → i = 2 ∨ i ∈ deviceLines) :
    pair.master.next pair.masterRequests =
      if pair.latched 0 && !p.masked 0 then some 0
      else if pair.latched 1 && !p.masked 1 then some 1
      else if pair.latched 8 && !p.masked 8 && !p.masked 2 then some 2 else none := by
  obtain ⟨-, -, -, -, mask⟩ := programmed.master
  obtain ⟨upper, above⟩ := masks_upper lines
  have slave := slave_next programmed (congrArg Prod.snd idle) above
  have others : ∀ k, 3 ≤ k → k < 8 →
      (pair.masterRequests &&& ~~~pair.master.mask).getLsbD k = false := by
    intro k lower small
    simp [mask, upper k lower small]
  -- The second controller adds its own line to the requests, and no other one.
  have bits : ∀ k < 8, pair.masterRequests.getLsbD k = (pair.master.requests.getLsbD k ||
      (decide (k = 2) && (pair.latched 8 && !p.masked 8))) := by
    intro k small
    unfold Pair.masterRequests
    rw [slave]
    cases pair.latched 8 && !p.masked 8 with
    | true => simp [Pair.cascadeLine, eq_comm]
    | false => simp
  have two : pair.master.requests.getLsbD 2 = false := programmed.cascade
  have zero : (pair.masterRequests &&& ~~~pair.master.mask).getLsbD 0 =
      (pair.latched 0 && !p.masked 0) := by
    rw [mask, BitVec.getLsbD_and, BitVec.getLsbD_not, bits 0 (by decide)]
    simp
    rfl
  have one : (pair.masterRequests &&& ~~~pair.master.mask).getLsbD 1 =
      (pair.latched 1 && !p.masked 1) := by
    rw [mask, BitVec.getLsbD_and, BitVec.getLsbD_not, bits 1 (by decide)]
    simp
    rfl
  have cascade : (pair.masterRequests &&& ~~~pair.master.mask).getLsbD 2 =
      (pair.latched 8 && !p.masked 8 && !p.masked 2) := by
    rw [mask, BitVec.getLsbD_and, BitVec.getLsbD_not, bits 2 (by decide), two]
    simp
    rfl
  rw [Chip.next_idle (congrArg Prod.fst idle), first_of_low others, zero, one, cascade]

/-- With nothing in service, the first device that waits for an enabled line comes next. -/
theorem acknowledge_idle (programmed : Programmed p pair)
    (idle : service pair = (0, 0)) (lines : ∀ i, p.masked i = false → i = 2 ∨ i ∈ deviceLines) :
    pair.acknowledge = (Requests.next pair.latched p.enabled deviceLines).map fun i =>
      (BitVec.ofNat 8 (0x20 + i.val), acknowledged pair i) := by
  have slave := slave_next programmed (congrArg Prod.snd idle) (masks_upper lines).2
  have answers : pair.answers = true := by
    unfold Pair.answers
    rw [programmed.master.2.2.1, programmed.slave.2.2.1]
    decide
  have masterVector : ∀ i : Line, pair.master.vector i = BitVec.ofNat 8 (0x20 + i.val) := by
    intro i
    unfold Chip.vector
    rw [programmed.master.2.1]
    revert i
    decide
  have slaveVector : pair.slave.vector 0 = 0x28 := by
    unfold Chip.vector
    rw [programmed.slave.2.1]
    decide
  have first : p.enabled 0 = !p.masked 0 := by simp [Pic.enabled]
  have second : p.enabled 1 = !p.masked 1 := by simp [Pic.enabled]
  have third : p.enabled 8 = (!p.masked 8 && !p.masked 2) := by simp [Pic.enabled]
  unfold Pair.acknowledge Requests.next deviceLines
  rw [master_next programmed idle lines]
  simp only [List.find?_cons, List.find?_nil, first, second, third, ← Bool.and_assoc]
  -- The timer comes before the keyboard, and that before the clock.
  cases timer : pair.latched 0 && !p.masked 0 with
  | true =>
    simp only [if_true, Option.bind_some, Option.map_some, masterVector]
    rfl
  | false =>
    cases keyboard : pair.latched 1 && !p.masked 1 with
    | true =>
      simp only [Bool.false_eq_true, if_true, if_false, Option.bind_some, Option.map_some,
        masterVector]
      rfl
    | false =>
      cases clock : pair.latched 8 && !p.masked 8 && !p.masked 2 with
      | true =>
        have waits : (pair.latched 8 && !p.masked 8) = true := (Bool.and_eq_true_iff.mp clock).1
        simp only [Bool.false_eq_true, if_true, if_false, Option.bind_some, Option.map_some]
        rw [if_pos ⟨rfl, answers⟩, slave, if_pos waits, Option.map_some, slaveVector]
        rfl
      | false => rfl

end Idle

/-- A line of a device is one of the three. -/
theorem line_of_mem {i : Fin 16} (member : i ∈ deviceLines) : ∃ irq : Irq, irq.line = i := by
  simp only [deviceLines, List.mem_cons, List.not_mem_nil, or_false] at member
  rcases member with rfl | rfl | rfl
  · exact ⟨.pit, rfl⟩
  · exact ⟨.keyboard, rfl⟩
  · exact ⟨.rtc, rfl⟩

section Acknowledging

variable {p : Pic} {pair : Pair}

/-- An acknowledgement reprograms nothing. -/
theorem programmed_acknowledged (programmed : Programmed p pair) (irq : Irq) :
    Programmed p (acknowledged pair irq.line) := by
  have cascade : (acknowledged pair irq.line).latched 2 = false := by
    rw [latched_acknowledged pair programmed.cascade]
    cases irq <;> exact programmed.cascade
  cases irq <;> exact ⟨programmed.master, programmed.slave, cascade⟩

/-- Ends are not automatic, so that a line is in service once it was acknowledged. -/
theorem acknowledge_service {chip : Chip} (mode : chip.mode = 0x01) (idle : chip.service = 0)
    (i : Line) : (chip.acknowledge i).service = bit i := by
  have manual : (0x01 : BitVec 8).getLsbD 1 = false := by decide
  simp only [Chip.acknowledge, mode, idle, manual]
  simp

/-- The end of a line takes it out of service, whether it was in service or not. -/
theorem finish_service {chip : Chip} {i : Line} (own : chip.service = 0 ∨ chip.service = bit i) :
    (chip.finish i).service = 0 := by
  rcases own with idle | own
  · simp [Chip.finish, idle]
  · simp only [Chip.finish, own]
    exact BitVec.and_not_self _

/-- The end of a device's line leaves nothing in service. -/
theorem ended_service (irq : Irq) (own : service pair = (0, 0) ∨ service pair = irq.inService) :
    service (if irq = .rtc then ⟨pair.master.finish 2, pair.slave.finish 0⟩
      else { pair with master := pair.master.finish (Fin.ofNat 8 irq.line.val) }) = (0, 0) := by
  -- The clock is ended at both controllers, and the other two devices at the first one.
  have master : pair.master.service = 0 ∨ pair.master.service = irq.inService.1 :=
    own.imp (congrArg Prod.fst) (congrArg Prod.fst)
  have slave : pair.slave.service = 0 ∨ pair.slave.service = irq.inService.2 :=
    own.imp (congrArg Prod.snd) (congrArg Prod.snd)
  cases irq with
  | pit => exact Prod.ext (finish_service master) (slave.elim id id)
  | keyboard => exact Prod.ext (finish_service master) (slave.elim id id)
  | rtc => exact Prod.ext (finish_service master) (finish_service slave)

/-- A device is known from the number of its line. -/
theorem line_inj {irq other : Irq}
    (same : BitVec.ofNat 32 irq.line.val = BitVec.ofNat 32 other.line.val) : irq = other := by
  revert same
  cases irq <;> cases other <;> decide

/-- The line that was acknowledged is in service, and nothing else is. -/
theorem service_acknowledged (programmed : Programmed p pair) (idle : service pair = (0, 0))
    (irq : Irq) : service (acknowledged pair irq.line) = irq.inService := by
  -- Ends are not automatic, so the bit stays until the handler ends it.
  have master : pair.master.service = 0 := congrArg Prod.fst idle
  have slave : pair.slave.service = 0 := congrArg Prod.snd idle
  obtain ⟨-, -, -, masterMode, -⟩ := programmed.master
  obtain ⟨-, -, -, slaveMode, -⟩ := programmed.slave
  cases irq with
  | pit => exact Prod.ext (acknowledge_service masterMode master 0) slave
  | keyboard => exact Prod.ext (acknowledge_service masterMode master 1) slave
  | rtc =>
    exact Prod.ext (acknowledge_service masterMode master 2) (acknowledge_service slaveMode slave 0)

end Acknowledging

/-- Code that enables and ends no lines but those of devices, and enables the one in between. -/
structure Tame (ops : List Op) : Prop where
  enables : ∀ irq, .irq (.enable irq) ∈ ops → irq = 2 ∨ irq ∈ deviceLines
  ends : ∀ irqNum, .eoi irqNum ∈ ops → ∃ irq : Irq, irqNum = BitVec.ofNat 32 irq.line.val

/-- Code that ends the line of a device before it lets interrupts in. -/
def Concludes (irq : Irq) : List Op → Prop
  | .cli :: ops => Concludes irq ops
  | .eoi irqNum :: _ => irqNum = BitVec.ofNat 32 irq.line.val
  | _ => False

/-- Nothing is in service, or one line that is ended before interrupts are let in. -/
def Served (s : Delivery) : Prop :=
  service s.pair = (0, 0) ∨ ∃ irq ops rest, s.routines = ops :: rest ∧ Concludes irq ops ∧
    s.interruptsOn = false ∧ service s.pair = irq.inService

/-- What holds between any two operations of the kernel. -/
structure Orderly (s : Delivery) : Prop where
  programmed : Programmed s.pic s.pair
  lines : ∀ i, s.pic.masked i = false → i = 2 ∨ i ∈ deviceLines
  routines : ∀ ops ∈ s.routines, Tame ops
  threads : ∀ thread ∈ s.threads, ∀ ops ∈ thread, Tame ops
  served : Served s

/-- The processor is given the vector of a device, and goes on in its handler. -/
structure Admitted (s : Delivery) (requests : Requests) (irq : Irq) (opens : Bool)
    (next : Delivery) : Prop where
  on : s.interruptsOn = true
  /-- No device of a higher priority waits for an enabled line. -/
  turn : Requests.next requests s.pic.enabled deviceLines = some irq.line
  routines : (irq.entry.ops opens).map (· :: s.routines) = some next.routines

section Code

/-- The rest of some code does no more than all of it. -/
theorem Tame.tail {op : Op} {ops : List Op} (tame : Tame (op :: ops)) : Tame ops :=
  ⟨fun irq member => tame.enables irq (List.mem_cons_of_mem _ member),
    fun irqNum member => tame.ends irqNum (List.mem_cons_of_mem _ member)⟩

theorem tame_rtcInitOps : Tame rtcInitOps := by
  constructor
  · intro irq member
    simp only [rtcInitOps, List.mem_cons, reduceCtorEq, Op.irq.injEq, IrqCall.enable.injEq,
      List.not_mem_nil, or_false, false_or] at member
    rcases member with rfl | rfl
    · exact .inl rfl
    · exact .inr (by decide)
  · intro irqNum member
    simp [rtcInitOps] at member

theorem tame_entryOps : Tame entryOps := by
  constructor
  · intro irq member
    simp only [entryOps, List.mem_append, List.mem_cons, reduceCtorEq, Op.irq.injEq,
      IrqCall.enable.injEq, List.not_mem_nil, or_false] at member
    rcases member with (rfl | inside) | rfl
    · exact .inr (by decide)
    · exact tame_rtcInitOps.enables irq inside
    · exact .inr (by decide)
  · intro irqNum member
    simp [entryOps, rtcInitOps] at member

/-- The vector of a device leads to the handler of the device. -/
theorem handlerOf_vector (irq : Irq) : handlerOf irq.vector.toNat = some irq.entry := by
  cases irq <;> rfl

/-- The handler of a device ends the line of the device first. -/
theorem entry_ends (irq : Irq) (opens : Bool) :
    ∃ ops, irq.entry.ops opens = some ops ∧ Concludes irq ops ∧ Tame ops := by
  -- Each of the three stubs ends its own line before anything else is let in.
  cases irq with
  | pit =>
    refine ⟨pitOps, rfl, rfl, fun irq member => ?_, fun irqNum member => ⟨.pit, ?_⟩⟩
    · simp [pitOps] at member
    · simpa [pitOps, Irq.line] using member
  | keyboard =>
    refine ⟨keyboardOps opens, rfl, rfl, fun irq member => ?_, fun irqNum member => ⟨.keyboard, ?_⟩⟩
    · cases opens <;> simp [keyboardOps] at member
    · cases opens <;> simpa [keyboardOps, Irq.line] using member
  | rtc =>
    refine ⟨rtcOps, rfl, rfl, fun irq member => ?_, fun irqNum member => ⟨.rtc, ?_⟩⟩
    · simp [rtcOps] at member
    · simpa [rtcOps, Irq.line] using member

end Code

namespace Orderly

variable {s next : Delivery}

/-- Where interrupts are let in, nothing is in service. -/
theorem idle (orderly : Orderly s) (on : s.interruptsOn = true) : service s.pair = (0, 0) := by
  rcases orderly.served with idle | ⟨irq, ops, rest, -, -, off, -⟩
  · exact idle
  · rw [on] at off
    cases off

/-- Code that does not end a line next finds nothing in service. -/
theorem idle_of_head (orderly : Orderly s) {ops : List Op} {rest : List (List Op)}
    (running : s.routines = ops :: rest) (other : ∀ irq, ¬ Concludes irq ops) :
    service s.pair = (0, 0) := by
  -- The only code that may find a line in service is the one that ends it next.
  rcases orderly.served with idle | ⟨irq, ops, rest, same, ends, -, -⟩
  · exact idle
  · rw [running] at same
    cases same
    exact absurd ends (other irq)

/-- A device raises its line. -/
theorem raise (orderly : Orderly s) (i : Fin 16) :
    Orderly { s with pair := s.pair.raise i } := by
  -- A request changes neither the programming nor what is in service.
  obtain ⟨programmed, lines, routines, threads, served⟩ := orderly
  have cascade : (s.pair.raise i).latched 2 = false := by
    rw [latched_raise]
    split
    · exact programmed.cascade
    · rename_i between
      exact (Function.update_of_ne (Ne.symm between) _ _).trans programmed.cascade
  obtain ⟨master, slave, parts⟩ := raise_parts s.pair i
  have same : service (s.pair.raise i) = service s.pair := by rw [parts]; rfl
  refine ⟨⟨?_, ?_, cascade⟩, lines, routines, threads, ?_⟩
  · simp only [parts]
    exact programmed.master
  · simp only [parts]
    exact programmed.slave
  · unfold Served
    rw [same]
    exact served

/-- A device whose turn it is can be served. -/
theorem step_accept (orderly : Orderly s) (on : s.interruptsOn = true) {irq : Irq}
    (turn : Requests.next s.pair.latched s.pic.enabled deviceLines = some irq.line) (opens : Bool) :
    s.step (.accept irq.vector opens) = (irq.entry.ops opens).map fun ops =>
      { s with
        pair := acknowledged s.pair irq.line
        interruptsOn := false
        routines := ops :: s.routines } := by
  simp only [Delivery.step]
  rw [if_pos on, acknowledge_idle orderly.programmed (orderly.idle on) orderly.lines, turn,
    Option.map_some, Option.filter_some, if_pos (by simp [Irq.vector]), Option.bind_some,
    handlerOf_vector, Option.bind_some]

/-- Only a device whose turn it is is served. -/
theorem turn_of_accept (orderly : Orderly s) {vector : BitVec 8} {opens : Bool}
    (taken : s.step (.accept vector opens) = some next) : s.interruptsOn = true ∧ ∃ irq : Irq,
      vector = irq.vector ∧
      Requests.next s.pair.latched s.pic.enabled deviceLines = some irq.line := by
  -- Nothing is in service, so the controllers give the first device that waits.
  simp only [Delivery.step] at taken
  split at taken
  · rename_i on
    refine ⟨on, ?_⟩
    rw [acknowledge_idle orderly.programmed (orderly.idle on) orderly.lines] at taken
    cases found : Requests.next s.pair.latched s.pic.enabled deviceLines with
    | none => simp [found] at taken
    | some i =>
      obtain ⟨irq, rfl⟩ := line_of_mem (List.mem_of_find?_eq_some found)
      refine ⟨irq, ?_, rfl⟩
      by_contra other
      have differ : BitVec.ofNat 8 (0x20 + irq.line.val) ≠ vector := fun same => other same.symm
      rw [found, Option.map_some, Option.filter_some, if_neg (by simpa using differ)] at taken
      cases taken
  · cases taken

/-- An interrupt is accepted. -/
theorem accept (orderly : Orderly s) {vector : BitVec 8} {opens : Bool}
    (taken : s.step (.accept vector opens) = some next) :
    Orderly next ∧ ∃ irq : Irq, vector = irq.vector ∧
      Admitted s s.pair.latched irq opens next ∧
      next.pair.latched = Requests.serve s.pair.latched irq.line := by
  -- The line is in service now, and the routine that ends it is the innermost one.
  obtain ⟨on, irq, rfl, turn⟩ := orderly.turn_of_accept taken
  obtain ⟨ops, code, ends, tame⟩ := entry_ends irq opens
  rw [orderly.step_accept on turn, code, Option.map_some, Option.some.injEq] at taken
  subst taken
  have idle := orderly.idle on
  obtain ⟨programmed, lines, routines, threads, -⟩ := orderly
  refine ⟨⟨programmed_acknowledged programmed irq, lines, fun other inside => ?_, threads, .inr ?_⟩,
    irq, rfl, ⟨on, turn, by rw [code]; rfl⟩,
    latched_acknowledged s.pair programmed.cascade irq.line⟩
  · rcases List.mem_cons.mp inside with rfl | before
    · exact tame
    · exact routines other before
  · exact ⟨irq, ops, s.routines, rfl, ends, rfl, service_acknowledged programmed idle irq⟩

/-- Where nothing is in service, any code may run, and let interrupts in or shut them out. -/
theorem goes_on (orderly : Orderly s) (idle : service s.pair = (0, 0)) (on : Bool)
    {routines : List (List Op)} {threads : List (List (List Op))}
    (tame : ∀ ops ∈ routines, Tame ops) (others : ∀ thread ∈ threads, ∀ ops ∈ thread, Tame ops) :
    Orderly { s with interruptsOn := on, routines := routines, threads := threads } :=
  ⟨orderly.programmed, orderly.lines, tame, others, .inl idle⟩

/-- The masks follow a call for a line, and the controllers are told. -/
theorem masks (orderly : Orderly s) (idle : service s.pair = (0, 0)) {call : IrqCall}
    (allowed : ∀ irq, call = .enable irq → irq = 2 ∨ irq ∈ deviceLines) {routines : List (List Op)}
    (tame : ∀ ops ∈ routines, Tame ops) :
    Orderly { s with
      pic := call.run s.pic
      pair := hear s.pair (maskWrites (call.run s.pic))
      routines := routines } ∧
      (hear s.pair (maskWrites (call.run s.pic))).latched = s.pair.latched := by
  -- The two writes reach the mask registers, because the controllers expect no other word.
  obtain ⟨programmed, lines, -, threads, -⟩ := orderly
  have told := hear_masks s.pair (call.run s.pic) programmed.master.1 programmed.slave.1
  have same : (hear s.pair (maskWrites (call.run s.pic))).latched = s.pair.latched := by
    rw [told]
    rfl
  refine ⟨⟨⟨?_, ?_, (congrFun same 2).trans programmed.cascade⟩, ?_, tame, threads, .inl ?_⟩, same⟩
  · obtain ⟨expects, vectors, cascade, mode, -⟩ := programmed.master
    simp only [told]
    exact ⟨expects, vectors, cascade, mode, trivial⟩
  · obtain ⟨expects, vectors, cascade, mode, -⟩ := programmed.slave
    simp only [told]
    exact ⟨expects, vectors, cascade, mode, trivial⟩
  · intro i enabled
    simp only [masked_run, Function.update_apply] at enabled
    split at enabled
    · rename_i named
      cases call with
      | enable irq => exact allowed i (by rw [named]; rfl)
      | disable irq => cases enabled
    · exact lines i enabled
  · simp only [told]
    exact idle

/-- The end of a line reprograms nothing, and takes it out of service. -/
theorem ended (orderly : Orderly s) (irq : Irq) {routines : List (List Op)}
    (tame : ∀ ops ∈ routines, Tame ops)
    (own : service s.pair = (0, 0) ∨ service s.pair = irq.inService) :
    Orderly { s with
      pair := hear s.pair (sendEoi (BitVec.ofNat 32 irq.line.val))
      routines := routines } ∧
      (hear s.pair (sendEoi (BitVec.ofNat 32 irq.line.val))).latched = s.pair.latched := by
  -- The words of the end are no initialisation, so that only the service bits change.
  obtain ⟨programmed, lines, -, threads, -⟩ := orderly
  have told := hear_eoi s.pair irq
  have same : (hear s.pair (sendEoi (BitVec.ofNat 32 irq.line.val))).latched = s.pair.latched := by
    rw [told]
    split <;> rfl
  have empty : service (hear s.pair (sendEoi (BitVec.ofNat 32 irq.line.val))) = (0, 0) := by
    rw [told]
    exact ended_service irq own
  refine ⟨⟨⟨?_, ?_, (congrFun same 2).trans programmed.cascade⟩, lines, tame, threads, .inl empty⟩,
    same⟩
  · simp only [told]
    split <;> exact programmed.master
  · simp only [told]
    split <;> exact programmed.slave

/-- An operation of the innermost routine. -/
theorem run (orderly : Orderly s) {op : Op} {ops : List Op} {rest : List (List Op)}
    (running : s.routines = (op :: ops) :: rest)
    (taken : { s with routines := ops :: rest }.run op = some next) :
    Orderly next ∧ next.pair.latched = s.pair.latched := by
  have first : Tame (op :: ops) :=
    orderly.routines (op :: ops) (by rw [running]; exact List.mem_cons_self)
  have tame : ∀ other ∈ ops :: rest, Tame other := by
    intro other member
    rcases List.mem_cons.mp member with rfl | below
    · exact first.tail
    · exact orderly.routines other (by rw [running]; exact List.mem_cons_of_mem _ below)
  cases op with
  | cli =>
    cases taken
    refine ⟨⟨orderly.programmed, orderly.lines, tame, orderly.threads, ?_⟩, rfl⟩
    -- A line that is to be ended still is.
    rcases orderly.served with idle | ⟨irq, code, below, same, ends, -, own⟩
    · exact .inl idle
    · rw [running] at same
      cases same
      exact .inr ⟨irq, ops, rest, rfl, ends, rfl, own⟩
  | sti | popfl | iret | work =>
    cases taken
    have idle := orderly.idle_of_head running fun _ => id
    exact ⟨orderly.goes_on idle _ tame orderly.threads, rfl⟩
  | irq call =>
    cases taken
    have idle := orderly.idle_of_head running fun _ => id
    exact orderly.masks idle (fun irq same => first.enables irq (same ▸ List.mem_cons_self)) tame
  | eoi irqNum =>
    cases taken
    obtain ⟨irq, rfl⟩ := first.ends irqNum List.mem_cons_self
    refine orderly.ended irq tame ?_
    rcases orderly.served with idle | ⟨other, code, below, same, ends, -, own⟩
    · exact .inl idle
    · rw [running] at same
      cases same
      exact .inr (line_inj ends ▸ own)
  | doSwitch => cases taken

end Orderly

/-- What an observer makes of the requests, who sees the devices and the vectors only. -/
def watchRequests (requests : Requests) (_ : Delivery) (event : DeliveryEvent) (_ : Delivery) :
    Requests :=
  match event with
  | .raise line => if line = 2 then requests else requests.ask line
  | .accept vector _ => requests.serve (Fin.ofNat 16 (vector.toNat - 0x20))
  | _ => requests

/-- The observer has the lines right in an orderly state. -/
structure Watched (s : Delivery) (requests : Requests) : Prop where
  orderly : Orderly s
  same : s.pair.latched = requests

namespace Watched

variable {s next : Delivery} {requests : Requests}

/-- What the kernel does outside the handlers. -/
theorem work (watched : Watched s requests) {work : Work}
    (taken : s.step (.work work) = some next) : Watched next requests := by
  obtain ⟨orderly, same⟩ := watched
  simp only [Delivery.step] at taken
  split at taken
  · rename_i working
    -- The code of the handlers is over, or it is no code of theirs.
    have idle : service s.pair = (0, 0) := by
      rcases orderly.served with idle | ⟨irq, ops, rest, running, ends, -, -⟩
      · exact idle
      · simp only [Delivery.working, running, decide_eq_true_eq] at working
        cases ops with
        | nil => cases working
        | cons op ops =>
          cases working
          exact ends.elim
    cases work with
    | cli | sti =>
      cases taken
      exact ⟨orderly.goes_on idle _ orderly.routines orderly.threads, same⟩
    | rtcInit =>
      cases taken
      refine ⟨orderly.goes_on idle _ (fun ops member => ?_) orderly.threads, same⟩
      rcases List.mem_cons.mp member with rfl | below
      · exact tame_rtcInitOps
      · exact orderly.routines ops below
    | enter =>
      cases taken
      refine ⟨orderly.goes_on idle _ (fun _ none => nomatch none) fun thread member => ?_, same⟩
      rcases List.mem_cons.mp member with rfl | other
      · exact orderly.routines
      · exact orderly.threads thread other
    | leave thread =>
      simp only [Delivery.doWork, Option.map_eq_some_iff] at taken
      obtain ⟨routines, found, rfl⟩ := taken
      exact ⟨orderly.goes_on idle _ (orderly.threads routines (List.mem_of_getElem? found))
        orderly.threads, same⟩
  · cases taken

/-- Every step keeps the controllers orderly, and the observer right. -/
theorem step (watched : Watched s requests) {event : DeliveryEvent}
    (taken : s.step event = some next) : Watched next (watchRequests requests s event next) := by
  -- Requests come and go with the first two kinds of step, and the others keep them.
  cases event with
  | raise line =>
    obtain ⟨orderly, same⟩ := watched
    cases taken
    refine ⟨orderly.raise line, ?_⟩
    simp only [watchRequests, latched_raise, same]
  | accept vector opens =>
    obtain ⟨orderly, same⟩ := watched
    obtain ⟨after, irq, rfl, -, served⟩ := orderly.accept taken
    refine ⟨after, ?_⟩
    have line : Fin.ofNat 16 (irq.vector.toNat - 0x20) = irq.line := by cases irq <;> rfl
    simp only [watchRequests]
    rw [served, same, line]
  | next =>
    obtain ⟨orderly, same⟩ := watched
    simp only [Delivery.step] at taken
    split at taken
    · cases taken
    · rename_i rest running
      cases taken
      have idle := orderly.idle_of_head running fun _ => id
      refine ⟨orderly.goes_on idle _ (fun ops member => ?_) orderly.threads, same⟩
      exact orderly.routines ops (by rw [running]; exact List.mem_cons_of_mem _ member)
    · rename_i op ops rest running
      obtain ⟨after, kept⟩ := orderly.run running taken
      exact ⟨after, kept.trans same⟩
  | switchTo thread =>
    obtain ⟨orderly, same⟩ := watched
    simp only [Delivery.step] at taken
    split at taken
    · rename_i ops rest running
      simp only [Option.map_eq_some_iff] at taken
      obtain ⟨routines, found, rfl⟩ := taken
      have idle := orderly.idle_of_head running fun _ => id
      have own : ∀ code ∈ ops :: rest, Tame code := by
        intro code member
        rcases List.mem_cons.mp member with rfl | below
        · exact (orderly.routines (.doSwitch :: code)
            (by rw [running]; exact List.mem_cons_self)).tail
        · exact orderly.routines code (by rw [running]; exact List.mem_cons_of_mem _ below)
      have all : ∀ other ∈ (ops :: rest) :: s.threads, ∀ code ∈ other, Tame code := by
        intro other member
        rcases List.mem_cons.mp member with rfl | before
        · exact own
        · exact orderly.threads other before
      exact ⟨orderly.goes_on idle _ (all routines (List.mem_of_getElem? found)) all, same⟩
    · cases taken
  | work work => exact watched.work taken

end Watched

/-- After `i8259_init` no line is enabled and no device waits. -/
theorem watched_entered (p : Pic) (pair : Pair) :
    Watched (Delivery.entered p pair) fun _ => false := by
  -- The initialisation masks all lines, and only the boot code runs.
  obtain ⟨programmed, idle, nothing⟩ := hear_init pair p
  refine ⟨⟨programmed, fun i enabled => ?_, fun ops member => ?_, (fun _ none => nomatch none),
    .inl idle⟩, nothing⟩
  · exact absurd (masked_i8259Init p i) (by rw [show (i8259Init p).masked i = false from enabled]; decide)
  · rw [List.mem_singleton.mp member]
    exact tame_entryOps

/-- The stub of a device is behind its vector. -/
theorem idt_offset (irq : Irq) (link : Handler → Word) (tssDesc ldtDesc : Descriptor) (tss : Tss) :
    ((kernelTables link tssDesc ldtDesc tss).idt[irq.vector.toNat]?).map Descriptor.offset =
      some (link irq.entry) := by
  have inside : irq.vector.toNat < numVec := irq.vector.isLt
  rw [kernelTables_idt inside, Option.map_some, idtEntry_offset]
  cases irq <;> rfl

/--
No request of a device is lost, blocked, or taken for another one.

What the controllers hold is what was asked for and not served since. Where interrupts are let in,
nothing is in service, and the processor is given the vector of the first enabled device that waits,
behind which is the stub of the device; no other vector is ever given.
-/
theorem requests_delivered {p : Pic} {pair : Pair} {s : Delivery} {requests : Requests}
    {events : List DeliveryEvent}
    (run : Run (observed Delivery.step watchRequests) Always
      (Delivery.entered p pair, fun _ => false) events (s, requests)) :
    s.pair.latched = requests ∧
      (s.interruptsOn = true → service s.pair = (0, 0) ∧
        s.pair.acknowledge.map Prod.fst = (Requests.next requests s.pic.enabled deviceLines).map
          (fun i => BitVec.ofNat 8 (0x20 + i.val)) ∧
        ∀ irq : Irq, Requests.next requests s.pic.enabled deviceLines = some irq.line →
          ∀ opens, (s.step (.accept irq.vector opens)).isSome = true) ∧
      (∀ vector opens next, s.step (.accept vector opens) = some next →
        ∃ irq : Irq, vector = irq.vector ∧ Admitted s requests irq opens next) ∧
      ∀ (irq : Irq) (link : Handler → Word) (tssDesc ldtDesc : Descriptor) (tss : Tss),
        ((kernelTables link tssDesc ldtDesc tss).idt[irq.vector.toNat]?).map Descriptor.offset =
          some (link irq.entry) := by
  -- The invariant holds after every step, and each part is read off it.
  have watched : Watched s requests := run.observed_invariant Watched (watched_entered p pair)
    fun _ _ _ _ watched _ taken => watched.step taken
  obtain ⟨orderly, same⟩ := watched
  refine ⟨same, fun on => ⟨orderly.idle on, ?_, fun irq turn opens => ?_⟩,
    fun vector opens next taken => ?_,
    fun irq link tssDesc ldtDesc tss => idt_offset irq link tssDesc ldtDesc tss⟩
  · rw [acknowledge_idle orderly.programmed (orderly.idle on) orderly.lines, same, Option.map_map]
    rfl
  · obtain ⟨ops, code, -⟩ := entry_ends irq opens
    rw [orderly.step_accept on (same ▸ turn), code]
    rfl
  · obtain ⟨-, irq, given, accepted, -⟩ := orderly.accept taken
    exact ⟨irq, given, same ▸ accepted⟩

/-- A controller as something else may have left it. -/
def sampleChip : Chip :=
  ⟨0xFF, 0x81, 0, 0x08, 0, 0x03, .mask, true, false⟩

/-- The kernel starts, and the clock and the keyboard raise their lines. -/
def sampleRequests : List DeliveryEvent :=
  List.replicate 8 .next ++ [.raise 8, .raise 1]

/-- The keyboard comes before the clock. -/
theorem requests_delivered_sample : ∃ s requests,
    Run (observed Delivery.step watchRequests) Always
      (Delivery.entered ⟨0, 0, fun _ => none⟩ ⟨sampleChip, sampleChip⟩, fun _ => false)
      sampleRequests (s, requests) ∧ s.pair.acknowledge.map Prod.fst = some 0x21 := by
  -- The run is computed once, for the turn and for whether interrupts are let in.
  have given : (replay (observed Delivery.step watchRequests) Always
      (Delivery.entered ⟨0, 0, fun _ => none⟩ ⟨sampleChip, sampleChip⟩, fun _ => false)
      sampleRequests).map (fun state => (state.1.interruptsOn,
        Requests.next state.2 state.1.pic.enabled deviceLines)) = some (true, some 1) := by
    decide +kernel
  obtain ⟨⟨s, requests⟩, reached, same⟩ := Option.map_eq_some_iff.mp given
  obtain ⟨on, turn⟩ := Prod.ext_iff.mp same
  have taken := replay_run reached
  obtain ⟨-, letIn, -⟩ := requests_delivered taken
  obtain ⟨-, vector, -⟩ := letIn on
  exact ⟨s, requests, taken, vector.trans (congrArg (Option.map _) turn)⟩

end SmallOs

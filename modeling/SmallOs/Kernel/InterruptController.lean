import Mathlib.Logic.Function.Basic

/-! The interrupt controller pair of `i8259.c`. -/

namespace SmallOs

/-- `MASTER_8259_PORT`. -/
def master8259Port : Nat := 0x20

/-- `SLAVE_8259_PORT`. -/
def slave8259Port : Nat := 0xA0

/-- `MASTER_8259_PORT_DATA`. -/
def master8259PortData : Nat := master8259Port + 1

/-- `SLAVE_8259_PORT_DATA`. -/
def slave8259PortData : Nat := slave8259Port + 1

/-- `PORT_NUM`: the lines of one controller. -/
def portNum : BitVec 32 := 8

/-- The masks of `i8259.c`, and what the controllers were last told. -/
structure Pic where
  masterMask : BitVec 8
  slaveMask : BitVec 8
  /-- The byte last written to a port, or `none` before the first write. -/
  ports : Nat → Option (BitVec 8)

namespace Pic

/-- `outb`, which sends the low byte of its argument. -/
def outb (p : Pic) (data : BitVec 32) (port : Nat) : Pic :=
  { p with ports := Function.update p.ports port (some (data.setWidth 8)) }

/-- The two writes that end `i8259_init`, `enable_irq`, and `disable_irq`. -/
def writeMasks (p : Pic) : Pic :=
  let p := p.outb (p.masterMask.setWidth 32) master8259PortData
  p.outb (p.slaveMask.setWidth 32) slave8259PortData

end Pic

/-- `i8259_init`, with the initialization words in the order they are sent. -/
def i8259Init (p : Pic) : Pic :=
  let p := { p with masterMask := 0xFF, slaveMask := 0xFF }
  let p := (p.outb 0x11 master8259Port).outb 0x11 slave8259Port
  let p := (p.outb 0x20 master8259PortData).outb 0x28 slave8259PortData
  let p := (p.outb 0x04 master8259PortData).outb 0x02 slave8259PortData
  let p := (p.outb 0x01 master8259PortData).outb 0x01 slave8259PortData
  -- The masks are written last, through the ports that took the words before them.
  p.writeMasks

/-- `mask &= ~(1 << n)`: the mask is promoted to an `int`, and the result is truncated. -/
def clearBit (mask : BitVec 8) (n : BitVec 32) : BitVec 8 :=
  (mask.setWidth 32 &&& ~~~((1 : BitVec 32) <<< n)).setWidth 8

/-- `mask = mask | (1 << n)`, with the same promotion and truncation. -/
def setBit (mask : BitVec 8) (n : BitVec 32) : BitVec 8 :=
  (mask.setWidth 32 ||| ((1 : BitVec 32) <<< n)).setWidth 8

/-- `enable_irq`. -/
def enableIrq (p : Pic) (irqNum : BitVec 32) : Pic :=
  if irqNum < portNum then
    { p with masterMask := clearBit p.masterMask irqNum }.writeMasks
  else
    -- The number of a slave line is also shifted into the mask of the master.
    { p with
      slaveMask := clearBit p.slaveMask (irqNum - portNum)
      masterMask := clearBit p.masterMask irqNum }.writeMasks

/-- `disable_irq`. -/
def disableIrq (p : Pic) (irqNum : BitVec 32) : Pic :=
  if irqNum < portNum then
    { p with masterMask := setBit p.masterMask irqNum }.writeMasks
  else
    { p with
      slaveMask := setBit p.slaveMask (irqNum - portNum)
      masterMask := setBit p.masterMask irqNum }.writeMasks

/-- A call of `enable_irq` or `disable_irq` for one of the sixteen lines. -/
inductive IrqCall where
  | enable (irq : Fin 16)
  | disable (irq : Fin 16)
  deriving DecidableEq, Repr

namespace IrqCall

/-- The line a call names. -/
def irq : IrqCall → Fin 16
  | enable irq | disable irq => irq

/-- Whether a call masks its line. -/
def masks : IrqCall → Bool
  | enable _ => false
  | disable _ => true

/-- Carry out a call. -/
def run (p : Pic) : IrqCall → Pic
  | enable irq => enableIrq p (BitVec.ofNat 32 irq)
  | disable irq => disableIrq p (BitVec.ofNat 32 irq)

end IrqCall

/-- The mask bit of a line, where the upper eight lines are those of the slave. -/
def Pic.masked (p : Pic) (i : Fin 16) : Bool :=
  if i.val < 8 then p.masterMask.getLsbD i.val else p.slaveMask.getLsbD (i.val - 8)

end SmallOs

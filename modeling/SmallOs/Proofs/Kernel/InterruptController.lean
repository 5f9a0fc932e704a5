import SmallOs.Foundation.Memory
import SmallOs.Kernel.InterruptController

/-! The masks of the interrupt controllers follow the calls that enable and disable lines. -/

namespace SmallOs

open Foundation

/-- Clearing the bit of a line leaves the other bits of a mask alone. -/
theorem getLsbD_clearBit (mask : BitVec 8) {k n : Nat} (bit : k < 8) (line : n < 16) :
    (clearBit mask (BitVec.ofNat 32 n)).getLsbD k = (mask.getLsbD k && !decide (k = n)) := by
  -- A bit above the eighth is lost by the truncation, so it clears nothing.
  have reduced : n % 2 ^ 32 = n := Nat.mod_eq_of_lt (by omega)
  have within : k < 32 := by omega
  unfold clearBit
  simp only [BitVec.getLsbD_setWidth, BitVec.getLsbD_and, BitVec.getLsbD_not,
    BitVec.shiftLeft_eq', BitVec.toNat_ofNat, reduced, BitVec.getLsbD_shiftLeft, bit, within]
  simp
  grind

theorem getLsbD_setBit (mask : BitVec 8) {k n : Nat} (bit : k < 8) (line : n < 16) :
    (setBit mask (BitVec.ofNat 32 n)).getLsbD k = (mask.getLsbD k || decide (k = n)) := by
  -- The same truncation keeps a line of the slave out of the master's mask.
  have reduced : n % 2 ^ 32 = n := Nat.mod_eq_of_lt (by omega)
  have within : k < 32 := by omega
  unfold setBit
  simp only [BitVec.getLsbD_setWidth, BitVec.getLsbD_or, BitVec.shiftLeft_eq',
    BitVec.toNat_ofNat, reduced, BitVec.getLsbD_shiftLeft, bit, within]
  simp
  grind

namespace Pic

/-- The two data ports were last told the two masks. -/
structure Told (p : Pic) : Prop where
  master : p.ports master8259PortData = some p.masterMask
  slave : p.ports slave8259PortData = some p.slaveMask

theorem writeMasks_told (p : Pic) : p.writeMasks.Told := by
  -- The second write goes to another port than the first.
  constructor <;> simp [writeMasks, outb, master8259PortData, slave8259PortData, master8259Port,
    slave8259Port]

/-- Telling the controllers changes no mask. -/
@[simp] theorem masked_writeMasks (p : Pic) : p.writeMasks.masked = p.masked := rfl

end Pic

/-- The number of a line is compared with eight as a word. -/
theorem ofNat_lt_portNum (i : Fin 16) : BitVec.ofNat 32 i < portNum ↔ i.val < 8 := by
  -- Neither number reaches the width of a word.
  have small := i.isLt
  have eight : portNum.toNat = 8 := rfl
  simp only [BitVec.lt_def, BitVec.toNat_ofNat, eight]
  omega

/-- The bit of the slave that a number from eight on names. -/
theorem ofNat_sub_portNum {i : Fin 16} (slave : ¬ i.val < 8) :
    BitVec.ofNat 32 i - portNum = BitVec.ofNat 32 (i.val - 8) := by
  have small := i.isLt
  have eight : portNum.toNat = 8 := rfl
  apply BitVec.eq_of_toNat_eq
  simp only [BitVec.toNat_sub, BitVec.toNat_ofNat, eight]
  omega

/-- Both functions shift the number into the master's mask, and one from eight on into the slave's. -/
theorem enableIrq_eq (p : Pic) (i : Fin 16) : enableIrq p (BitVec.ofNat 32 i) =
    { p with
      slaveMask := if i.val < 8 then p.slaveMask else
        clearBit p.slaveMask (BitVec.ofNat 32 (i.val - 8))
      masterMask := clearBit p.masterMask (BitVec.ofNat 32 i) : Pic }.writeMasks := by
  unfold enableIrq
  by_cases master : i.val < 8
  · rw [if_pos ((ofNat_lt_portNum i).mpr master), if_pos master]
  · rw [if_neg (mt (ofNat_lt_portNum i).mp master), if_neg master, ofNat_sub_portNum master]

theorem disableIrq_eq (p : Pic) (i : Fin 16) : disableIrq p (BitVec.ofNat 32 i) =
    { p with
      slaveMask := if i.val < 8 then p.slaveMask else
        setBit p.slaveMask (BitVec.ofNat 32 (i.val - 8))
      masterMask := setBit p.masterMask (BitVec.ofNat 32 i) : Pic }.writeMasks := by
  unfold disableIrq
  by_cases master : i.val < 8
  · rw [if_pos ((ofNat_lt_portNum i).mpr master), if_pos master]
  · rw [if_neg (mt (ofNat_lt_portNum i).mp master), if_neg master, ofNat_sub_portNum master]

/-- A call changes the mask bit of the line it names, and no other. -/
theorem masked_run (p : Pic) (call : IrqCall) :
    (call.run p).masked = Function.update p.masked call.irq call.masks := by
  funext i
  have line := i.isLt
  have named := call.irq.isLt
  have same : i = call.irq ↔ i.val = call.irq.val := Fin.ext_iff
  -- The bit is one of the master's or of the slave's, and so is the line that is named.
  cases call with
  | enable irq =>
    simp only [IrqCall.run, IrqCall.irq, IrqCall.masks, enableIrq_eq, Pic.masked_writeMasks,
      Function.update_apply] at *
    by_cases master : i.val < 8
    · simp only [Pic.masked, if_pos master, getLsbD_clearBit _ master named]
      grind
    · simp only [Pic.masked, if_neg master]
      by_cases low : irq.val < 8
      · rw [if_pos low]
        grind
      · rw [if_neg low, getLsbD_clearBit _ (by omega) (by omega)]
        grind
  | disable irq =>
    simp only [IrqCall.run, IrqCall.irq, IrqCall.masks, disableIrq_eq, Pic.masked_writeMasks,
      Function.update_apply] at *
    by_cases master : i.val < 8
    · simp only [Pic.masked, if_pos master, getLsbD_setBit _ master named]
      grind
    · simp only [Pic.masked, if_neg master]
      by_cases low : irq.val < 8
      · rw [if_pos low]
        grind
      · rw [if_neg low, getLsbD_setBit _ (by omega) (by omega)]
        grind

theorem told_run (p : Pic) (call : IrqCall) : (call.run p).Told := by
  -- Either function ends with the two writes.
  cases call with
  | enable irq =>
    simp only [IrqCall.run, enableIrq_eq]
    exact Pic.writeMasks_told _
  | disable irq =>
    simp only [IrqCall.run, disableIrq_eq]
    exact Pic.writeMasks_told _

/-- A sequence of calls updates the mask bits one after the other. -/
theorem masked_foldl (p : Pic) (calls : List IrqCall) : (calls.foldl IrqCall.run p).masked =
    updateAll (calls.map fun call => (call.irq, call.masks)) p.masked := by
  -- The induction follows the calls, and each of them is one update.
  induction calls generalizing p with
  | nil => rfl
  | cons call calls ih =>
    rw [List.foldl_cons, ih, masked_run]
    rfl

theorem told_foldl {p : Pic} (told : p.Told) (calls : List IrqCall) :
    (calls.foldl IrqCall.run p).Told := by
  induction calls generalizing p with
  | nil => exact told
  | cons call calls ih => exact ih (told_run p call)

/-- The last call that names a line. -/
def lastNaming (calls : List IrqCall) (i : Fin 16) : Option IrqCall :=
  calls.reverse.find? fun call => call.irq = i

/-- The last update of a mask bit is that of the last call that names its line. -/
theorem lastUpdate_calls (calls : List IrqCall) (i : Fin 16) :
    lastUpdate (calls.map fun call => (call.irq, call.masks)) i =
      (lastNaming calls i).map IrqCall.masks := by
  -- Searching the updates is searching the calls.
  simp only [lastUpdate, lastNaming, ← List.map_reverse, List.find?_map, Option.map_map]
  rfl

/-- The initialization masks every line, and its last writes are the masks. -/
theorem masked_i8259Init (p : Pic) (i : Fin 16) : (i8259Init p).masked i = true := by
  have all : ∀ i : Fin 16, (if i.val < 8 then (0xFF : BitVec 8).getLsbD i.val
      else (0xFF : BitVec 8).getLsbD (i.val - 8)) = true := by decide
  exact all i

/--
A line is enabled exactly when the last call that names it enabled it.

The controllers were last told the masks, and no call changes the bit of a line it does not name.
-/
theorem irq_masks (p : Pic) (calls : List IrqCall) :
    (∀ i, (calls.foldl IrqCall.run (i8259Init p)).masked i = false ↔
        lastNaming calls i = some (.enable i)) ∧
      (calls.foldl IrqCall.run (i8259Init p)).Told ∧
      ∀ (q : Pic) (call : IrqCall) (i : Fin 16), call.irq ≠ i →
        (call.run q).masked i = q.masked i := by
  refine ⟨fun i => ?_, told_foldl (Pic.writeMasks_told _) calls, fun q call i other => ?_⟩
  · rw [masked_foldl, updateAll_apply, lastUpdate_calls, masked_i8259Init]
    -- A call that was found names the line, so only its kind is left open.
    cases found : lastNaming calls i with
    | none => simp
    | some call =>
      have names : call.irq = i := by simpa using List.find?_some found
      cases call with
      | enable irq =>
        have line : irq = i := names
        simp [IrqCall.masks, line]
      | disable irq => simp [IrqCall.masks]
  · rw [masked_run, Function.update_of_ne (Ne.symm other)]

end SmallOs

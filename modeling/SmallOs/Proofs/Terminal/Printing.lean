import SmallOs.Proofs.Terminal.OutputRouting

/-! What a process writes is printed on the screen of its own terminal, displayed or not. -/

namespace SmallOs

open Foundation

variable {s middle next : Kernel}

/-- A text was printed for the running process: on its terminal's screen, and on no other. -/
structure Printed (s : Kernel) (text : List Byte) (next : Kernel) : Prop where
  range : next.positions.InRange
  same : ScreenOnly s next
  shown : next.currentId = s.currentId
  sheets : ∀ u, next.sheet u = if u = s.currTerminal then (s.sheet u).prints text else s.sheet u

namespace Printed

theorem running {text : List Byte} (printed : Printed s text next) :
    next.currTerminal = s.currTerminal :=
  printed.same.agree Kernel.currTerminal fun _ => rfl

theorem pcbs {text : List Byte} (printed : Printed s text next) : next.pcbs = s.pcbs :=
  printed.same.agree Kernel.pcbs fun _ => rfl

theorem curPcb {text : List Byte} (printed : Printed s text next) (t : Terminal) :
    (next.terminals t).curPcb = (s.terminals t).curPcb :=
  printed.same.agree (fun k => (k.terminals t).curPcb) fun _ => rfl

/-- Nothing is printed. -/
theorem refl (range : s.positions.InRange) : Printed s [] s :=
  ⟨range, .refl s, rfl, fun u => by simp [Sheet.prints]⟩

/-- Two texts printed one after the other are one text. -/
theorem trans {first second : List Byte} (front : Printed s first middle)
    (back : Printed middle second next) : Printed s (first ++ second) next := by
  refine ⟨back.range, front.same.trans back.same, back.shown.trans front.shown, fun u => ?_⟩
  rw [back.sheets, front.running, front.sheets]
  split
  · simp [Sheet.prints, List.foldl_append]
  · rfl

end Printed

/-- The bytes of a buffer that are written are the text in it. -/
theorem map_cstr (text : List Byte) : (List.range text.length).map (cstr text) = text := by
  refine List.ext_getElem (by simp) fun k left right => ?_
  simp [cstr, right]

/-- A routine that prints single characters for the running process prints a text. -/
theorem printed_foldl {output : Kernel → Byte → Kernel} (ok : Kernel → Prop)
    (prints : ∀ s c, ok s → s.positions.InRange → Printed s [c] (output s c) ∧ ok (output s c))
    (range : s.positions.InRange) (holds : ok s) (text : List Byte) :
    Printed s text (text.foldl output s) := by
  -- The induction follows the text, and every character is printed on the same terminal.
  induction text generalizing s with
  | nil => exact .refl range
  | cons c text ih =>
    obtain ⟨first, kept⟩ := prints s c holds range
    exact first.trans (ih first.range kept)

/-- The driver prints its buffer, whichever routine it uses. -/
theorem terminalWrite_printed (range : s.positions.InRange) (buf : List Byte) (nbytes : Int) :
    Printed s ((List.range nbytes.toNat).map (cstr buf)) (terminalWrite s buf nbytes).2 := by
  unfold terminalWrite
  generalize (List.range nbytes.toNat).map (cstr buf) = text
  simp only
  split
  · rename_i here
    refine printed_foldl (fun s => s.currTerminal = s.currentId) (fun s c here range => ?_)
      range here text
    have only := deviceOnly_putc s c
    have running : (putc s c).currTerminal = s.currTerminal :=
      only.screenOnly.agree Kernel.currTerminal fun _ => rfl
    refine ⟨⟨putc_inRange range c, only.screenOnly, only.currentId, fun u => ?_⟩, ?_⟩
    · rw [sheet_putc range, here]
      rfl
    · rw [running, only.currentId, here]
  · rename_i behind
    refine printed_foldl (fun s => s.currTerminal ≠ s.currentId)
      (fun s c behind range => ?_) range behind text
    have shown := (putm_live s c).1
    refine ⟨⟨putm_inRange range c, screenOnly_putm s c, shown, fun u => ?_⟩, ?_⟩
    · rw [sheet_putm range behind]
      rfl
    · rw [putm_currTerminal, shown]
      exact behind

end SmallOs

import Mathlib.Data.List.GetD
import SmallOs.Proofs.User.Display
import SmallOs.Proofs.User.Frames

/-! What `fish` shows: one picture for fifteen ticks, the other one for fifteen, and so on. -/

namespace SmallOs

open Foundation

namespace Light

/-- Ticks leave the characters of a light alone. -/
theorem ticks_faces (n : Nat) (l : Light) :
    (Light.tick^[n] l).onChar = l.onChar ∧ (Light.tick^[n] l).offChar = l.offChar := by
  induction n with
  | zero => exact ⟨rfl, rfl⟩
  | succ n ih =>
    have once : ∀ l : Light, l.tick.onChar = l.onChar ∧ l.tick.offChar = l.offChar := fun l => by
      unfold tick
      split <;> exact ⟨rfl, rfl⟩
    rw [Function.iterate_succ_apply']
    exact ⟨(once _).1.trans ih.1, (once _).2.trans ih.2⟩

/-- What a light shows some ticks after it was put up. -/
theorem ticks_face (blink : Blink) (n : Nat) :
    (Light.tick^[n] (fresh blink)).face =
      if n % (duration blink.onLength + duration blink.offLength) < duration blink.onLength
        then blink.onChar else blink.offChar := by
  obtain ⟨on, off⟩ := ticks_faces n (fresh blink)
  unfold face
  rw [on, off]
  exact if_congr (Phase.ticks blink n).lit_iff rfl rfl

end Light

/-- Lights that were put up together and ticked since, each at a cell of its own. -/
structure Showing (screen : Nat → Byte) (blinks : List Blink) (n : Nat) (a : Lights) : Prop where
  lights : a.lights = blinks.map fun blink => Light.tick^[n] (Light.fresh blink)
  distinct : (blinks.map Blink.location).Nodup
  shown : a.Shown
  /-- Away from the lights the screen is as it was. -/
  others : ∀ offset, (∀ blink ∈ blinks, offset ≠ cellOffset blink.location) →
    a.screen offset = screen offset

namespace Showing

variable {screen : Nat → Byte} {blinks : List Blink} {n : Nat} {a : Lights}

/-- The locations of the lights are those they were put up at. -/
theorem locations (showing : Showing screen blinks n a) :
    a.lights.map Light.location = blinks.map Blink.location := by
  rw [showing.lights, List.map_map]
  exact List.map_congr_left fun blink _ => Light.ticks_location n (Light.fresh blink)

/-- The lights are apart. -/
theorem apart (showing : Showing screen blinks n a) : a.Apart := by
  unfold Lights.Apart
  rw [showing.locations]
  exact showing.distinct

/-- Another light is put up at a cell of its own. -/
theorem add (showing : Showing screen blinks 0 a) {blink : Blink}
    (visible : blink.location.toNat < screenCells) (room : blinks.length < screenCells)
    (free : blink.location ∉ blinks.map Blink.location) :
    (a.add blink).1 = 0 ∧ Showing screen (blink :: blinks) 0 (a.add blink).2 := by
  have count : a.lights.length = blinks.length := by
    rw [showing.lights, List.length_map]
  have accepted : ¬ (screenCells ≤ blink.location.toNat ∨ screenCells ≤ a.lights.length) := by
    omega
  have away : ∀ l ∈ a.lights, l.location ≠ blink.location := fun l member same => by
    rw [← showing.locations] at free
    exact free (List.mem_map.mpr ⟨l, member, same⟩)
  have shown := Lights.add_shown showing.shown away
  unfold Lights.add at shown ⊢
  rw [if_neg accepted] at shown ⊢
  refine ⟨rfl, ?_, List.nodup_cons.mpr ⟨free, showing.distinct⟩, shown, fun offset elsewhere => ?_⟩
  · change Light.fresh blink :: a.lights = _
    rw [showing.lights]
    rfl
  · have here := elsewhere blink List.mem_cons_self
    refine (Function.update_of_ne here _ _).trans (showing.others offset fun other member => ?_)
    exact elsewhere other (List.mem_cons_of_mem blink member)

/-- All the lights are ticked. -/
theorem tick (showing : Showing screen blinks n a) : Showing screen blinks (n + 1) a.tick := by
  refine ⟨?_, showing.distinct, Lights.tick_shown showing.apart showing.shown,
    fun offset elsewhere => ?_⟩
  · change a.lights.map Light.tick = _
    rw [showing.lights, List.map_map]
    exact List.map_congr_left fun blink _ => (Function.iterate_succ_apply' _ _ _).symm
  · refine (Lights.foldl_redraw_away fun l member same => ?_).trans (showing.others offset elsewhere)
    have place : l.location ∈ blinks.map Blink.location := by
      rw [← showing.locations]
      exact List.mem_map_of_mem member
    obtain ⟨blink, among, located⟩ := List.mem_map.mp place
    exact elsewhere blink among (by rw [located, same])

/-- Some ticks. -/
theorem ticks (showing : Showing screen blinks 0 a) (n : Nat) :
    Showing screen blinks n (a.serve (List.replicate n .tasklet)).2 := by
  have later : ∀ k, ∀ b, Showing screen blinks k b →
      Showing screen blinks (k + n) (b.serve (List.replicate n .tasklet)).2 := by
    induction n with
    | zero => exact fun _ _ now => now
    | succ n ih =>
      intro k b now
      have rest := ih (k + 1) b.tick now.tick
      rw [show k + 1 + n = k + (n + 1) by omega] at rest
      exact rest
  have all := later 0 a showing
  rwa [Nat.zero_add] at all

/-- Some lights, one after the other. -/
theorem adds (showing : Showing screen blinks 0 a) {more : List Blink} (requests : List Request)
    (visible : ∀ blink ∈ more, blink.location.toNat < screenCells)
    (room : blinks.length + more.length ≤ screenCells)
    (distinct : (more.map Blink.location).Nodup)
    (free : ∀ blink ∈ more, blink.location ∉ blinks.map Blink.location) :
    ∃ b, Showing screen (more.reverse ++ blinks) 0 b ∧
      (a.serve (more.map .add ++ requests)).2 = (b.serve requests).2 := by
  induction more generalizing blinks a with
  | nil => exact ⟨a, showing, rfl⟩
  | cons blink more ih =>
    simp only [List.length_cons] at room
    rw [List.map_cons, List.nodup_cons] at distinct
    obtain ⟨-, next⟩ := showing.add (visible blink List.mem_cons_self) (by omega)
      (free blink List.mem_cons_self)
    obtain ⟨b, all, same⟩ := ih next
      (fun other member => visible other (List.mem_cons_of_mem blink member))
      (by simp only [List.length_cons]; omega) distinct.2 fun other member taken => by
        -- What is still to come is neither at the new cell nor at one of those before.
        rcases List.mem_cons.mp taken with here | before
        · exact distinct.1 (here ▸ List.mem_map_of_mem member)
        · exact free other (List.mem_cons_of_mem blink member) before
    refine ⟨b, by simpa using all, ?_⟩
    simp only [List.map_cons, List.cons_append, Lights.serve, Lights.request]
    exact same

/-- A cell shows what its light does. -/
theorem cell (showing : Showing screen blinks n a) {blink : Blink} (member : blink ∈ blinks) :
    a.screen (cellOffset blink.location) =
      if n % (duration blink.onLength + duration blink.offLength) < duration blink.onLength
        then blink.onChar else blink.offChar := by
  have light : Light.tick^[n] (Light.fresh blink) ∈ a.lights := by
    rw [showing.lights]
    exact List.mem_map_of_mem member
  have seen := showing.shown _ light
  rwa [Light.ticks_location, Light.ticks_face] at seen

end Showing

/-- A picture whose cells are on the screen, each in a place of its own. -/
structure FitsScreen (rows : List (List Byte)) : Prop where
  count : rows.length ≤ 24
  narrow : ∀ line ∈ rows, line.length ≤ 80

namespace FitsScreen

variable {rows rows0 rows1 : List (List Byte)}

/-- No line is wider than the screen, missing ones included. -/
theorem line (fits : FitsScreen rows) (row : Nat) : (rows.getD row []).length ≤ 80 := by
  by_cases inside : row < rows.length
  · rw [List.getD_eq_getElem _ _ inside]
    exact fits.narrow _ (List.getElem_mem inside)
  · rw [List.getD_eq_default _ _ (by omega)]
    exact Nat.zero_le 80

end FitsScreen

/-- The cell of a picture that is drawn at some row and column. -/
def pictureCell (rows : List (List Byte)) (row col : Nat) : Byte :=
  cellOf (rows.getD row []) col

/-- The place of a cell of the picture on the screen. -/
def pictureOffset (row col : Nat) : Nat :=
  2 * (row * 80 + col + 40)

section Pictures

variable {blinkStruct blink : Blink} {rows0 rows1 : List (List Byte)}

/-- The light of a cell. -/
theorem cellBlink_some {row col : Nat} {on off : Byte}
    (put : cellBlink blinkStruct row col on off = some blink) :
    ¬ (on = 0x20 ∧ off = 0x20) ∧ blink = { blinkStruct with
      onChar := on
      offChar := off
      onLength := 15
      offLength := 15
      location := BitVec.ofNat 16 (row * 80 + col + 40) } := by
  unfold cellBlink at put
  split at put
  next => cases put
  next visible => exact ⟨visible, (Option.some.inj put).symm⟩

/-- The lights of two pictures are those of their cells. -/
theorem mem_pictureBlinks : blink ∈ pictureBlinks blinkStruct 0 rows0 rows1 ↔
    ∃ row < max rows0.length rows1.length,
      ∃ col < max (rows0.getD row []).length (rows1.getD row []).length,
        cellBlink blinkStruct row col (pictureCell rows0 row col) (pictureCell rows1 row col) =
          some blink := by
  simp only [pictureBlinks, rowBlinks, List.mem_flatMap, List.mem_filterMap, List.mem_range,
    Nat.zero_add, pictureCell]

/-- A light of two pictures is at the place of its cell. -/
theorem pictureBlinks_location (fits0 : FitsScreen rows0) (fits1 : FitsScreen rows1)
    (member : blink ∈ pictureBlinks blinkStruct 0 rows0 rows1) :
    ∃ row < 24, ∃ col < 80, blink.location.toNat = row * 80 + col + 40 ∧
      cellBlink blinkStruct row col (pictureCell rows0 row col) (pictureCell rows1 row col) =
        some blink := by
  obtain ⟨row, low, col, near, put⟩ := mem_pictureBlinks.mp member
  have count0 := fits0.count
  have count1 := fits1.count
  have width0 := fits0.line row
  have width1 := fits1.line row
  refine ⟨row, by omega, col, by omega, ?_, put⟩
  rw [(cellBlink_some put).2]
  exact Nat.mod_eq_of_lt (by omega)

/-- The lights of two pictures are put up from the top left to the bottom right. -/
theorem pictureBlinks_sorted (fits0 : FitsScreen rows0) (fits1 : FitsScreen rows1) :
    (pictureBlinks blinkStruct 0 rows0 rows1).Pairwise
      fun first second => first.location.toNat < second.location.toNat := by
  have count0 := fits0.count
  have count1 := fits1.count
  -- A location is read back from the row and the column, as it does not wrap.
  have located : ∀ row < 24, ∀ col < 80, ∀ on off blink,
      cellBlink blinkStruct row col on off = some blink →
        blink.location.toNat = row * 80 + col + 40 := by
    intro row low col near on off blink put
    rw [(cellBlink_some put).2]
    exact Nat.mod_eq_of_lt (by omega)
  unfold pictureBlinks rowBlinks
  simp only [Nat.zero_add]
  refine List.pairwise_flatMap.mpr ⟨fun row low => ?_, ?_⟩
  · have width0 := fits0.line row
    have width1 := fits1.line row
    rw [List.mem_range] at low
    refine List.pairwise_filterMap.mpr (List.Pairwise.imp_of_mem ?_ List.pairwise_lt_range)
    intro col next near far before first put second put'
    rw [List.mem_range] at near far
    rw [located row (by omega) col (by omega) _ _ _ put,
      located row (by omega) next (by omega) _ _ _ put']
    omega
  · refine List.Pairwise.imp_of_mem ?_ List.pairwise_lt_range
    intro row next low high before first among second among'
    rw [List.mem_range] at low high
    obtain ⟨col, near, put⟩ := List.mem_filterMap.mp among
    obtain ⟨col', near', put'⟩ := List.mem_filterMap.mp among'
    rw [List.mem_range] at near near'
    have width0 := fits0.line row
    have width1 := fits1.line row
    have width0' := fits0.line next
    have width1' := fits1.line next
    rw [located row (by omega) col (by omega) _ _ _ put,
      located next (by omega) col' (by omega) _ _ _ put']
    omega

/-- No two lights of two pictures are at one place. -/
theorem pictureBlinks_distinct (fits0 : FitsScreen rows0) (fits1 : FitsScreen rows1) :
    ((pictureBlinks blinkStruct 0 rows0 rows1).map Blink.location).Nodup := by
  refine List.pairwise_map.mpr ((pictureBlinks_sorted fits0 fits1).imp ?_)
  intro first second before same
  rw [same] at before
  exact absurd before (Nat.lt_irrefl _)

/-- There is room for the lights of two pictures that fit the screen. -/
theorem pictureBlinks_length (blinkStruct : Blink) (fits0 : FitsScreen rows0) (fits1 : FitsScreen rows1) :
    (pictureBlinks blinkStruct 0 rows0 rows1).length ≤ screenCells := by
  have places : ((pictureBlinks blinkStruct 0 rows0 rows1).map fun blink =>
      blink.location.toNat).Nodup :=
    List.pairwise_map.mpr ((pictureBlinks_sorted fits0 fits1).imp fun before => Nat.ne_of_lt before)
  have onScreen : (pictureBlinks blinkStruct 0 rows0 rows1).map (fun blink =>
      blink.location.toNat) ⊆ List.range screenCells := by
    intro place among
    obtain ⟨blink, member, rfl⟩ := List.mem_map.mp among
    obtain ⟨row, low, col, near, place, -⟩ := pictureBlinks_location fits0 fits1 member
    rw [List.mem_range, place]
    simp only [screenCells]
    omega
  -- Different places on the screen are not more than the screen has.
  have few := (places.subperm onScreen).length_le
  rwa [List.length_map, List.length_range] at few

/-- A cell that is not blank is inside its picture. -/
theorem inside_of_visible {rows : List (List Byte)} {row col : Nat}
    (visible : pictureCell rows row col ≠ 0x20) :
    row < rows.length ∧ col < (rows.getD row []).length := by
  have near : col < (rows.getD row []).length := by
    by_contra beyond
    exact visible (List.getD_eq_default _ _ (Nat.le_of_not_lt beyond))
  refine ⟨?_, near⟩
  -- A row behind the last one is empty.
  by_contra beyond
  rw [List.getD_eq_default _ _ (Nat.le_of_not_lt beyond)] at near
  exact absurd near (Nat.not_lt_zero col)

/-- A cell has a light exactly where one of two pictures is not blank. -/
theorem light_of_visible {row col : Nat}
    (visible : ¬ (pictureCell rows0 row col = 0x20 ∧ pictureCell rows1 row col = 0x20)) :
    { blinkStruct with
      onChar := pictureCell rows0 row col
      offChar := pictureCell rows1 row col
      onLength := 15
      offLength := 15
      location := BitVec.ofNat 16 (row * 80 + col + 40) } ∈
        pictureBlinks blinkStruct 0 rows0 rows1 := by
  have inside : row < max rows0.length rows1.length ∧
      col < max (rows0.getD row []).length (rows1.getD row []).length := by
    by_cases first : pictureCell rows0 row col = 0x20
    · have second := inside_of_visible fun blank => visible ⟨first, blank⟩
      omega
    · have bounds := inside_of_visible first
      omega
  exact mem_pictureBlinks.mpr ⟨row, inside.1, col, inside.2, if_neg visible⟩

/-- What two pictures show together some ticks after their lights were put up. -/
theorem Showing.pictures {screen : Nat → Byte} {n : Nat} {a : Lights}
    (showing : Showing screen (pictureBlinks blinkStruct 0 rows0 rows1).reverse n a)
    (fits0 : FitsScreen rows0) (fits1 : FitsScreen rows1) {row col : Nat} (low : row < 24)
    (near : col < 80) :
    a.screen (pictureOffset row col) =
      if pictureCell rows0 row col = 0x20 ∧ pictureCell rows1 row col = 0x20 then
        screen (pictureOffset row col)
      else if n % 30 < 15 then pictureCell rows0 row col else pictureCell rows1 row col := by
  by_cases blank : pictureCell rows0 row col = 0x20 ∧ pictureCell rows1 row col = 0x20
  · rw [if_pos blank]
    refine showing.others _ fun blink member same => ?_
    -- A light at this place would be that of this cell, which has none.
    obtain ⟨row', low', col', near', place, put⟩ :=
      pictureBlinks_location fits0 fits1 (List.mem_reverse.mp member)
    simp only [pictureOffset, cellOffset, place] at same
    obtain ⟨rfl, rfl⟩ : row = row' ∧ col = col' := by omega
    exact (cellBlink_some put).1 blank
  · rw [if_neg blank]
    have light := showing.cell (List.mem_reverse.mpr (light_of_visible blank))
    have fifteen : duration 15 = 15 := by decide
    simp only [fifteen] at light
    rw [← light]
    refine congrArg a.screen (congrArg (2 * ·) ?_)
    exact (Nat.mod_eq_of_lt (by omega)).symm

end Pictures

/--
`fish` shows the first picture for fifteen ticks, the second one for fifteen, and so on for ever.

A cell that is blank in both pictures is left alone, and so is the rest of the screen.
-/
theorem fish_animates {fuel : Nat} (enough : screenCells < fuel) (blinkStruct : Blink)
    (screen : Nat → Byte) {text0 text1 : List Byte} (enough0 : text0.length + 1 < fuel)
    (enough1 : text1.length + 1 < fuel) (fits0 : FitsScreen (linesOf text0))
    (fits1 : FitsScreen (linesOf text1)) (n : Nat) :
    ∃ blinks answers f, addFrames blinkStruct text0 text1 fuel = some blinks ∧
      (Fish.cleared screen).serve fuel (blinks.map .add ++ List.replicate n .tasklet) =
        some (answers, f) ∧
      (∀ row < 24, ∀ col < 80, f.screen (pictureOffset row col) =
        let on := pictureCell (linesOf text0) row col
        let off := pictureCell (linesOf text1) row col
        if on = 0x20 ∧ off = 0x20 then screen (pictureOffset row col)
        else if n % 30 < 15 then on else off) ∧
      ∀ offset, (∀ row < 24, ∀ col < 80, offset ≠ pictureOffset row col) →
        f.screen offset = screen offset := by
  have visible : ∀ blink ∈ pictureBlinks blinkStruct 0 (linesOf text0) (linesOf text1),
      blink.location.toNat < screenCells ∧ blink.location ≠ 0 := by
    intro blink member
    obtain ⟨row, low, col, near, place, -⟩ := pictureBlinks_location fits0 fits1 member
    refine ⟨by simp only [screenCells]; omega, fun zero => ?_⟩
    have origin : (0 : BitVec 16).toNat = 0 := rfl
    rw [zero, origin] at place
    omega
  -- The lights are put up and ticked in the abstract, and the program shows what they do.
  have empty : Showing screen [] 0 ⟨[], screen⟩ :=
    ⟨rfl, List.nodup_nil, fun l member => (nomatch member), fun _ _ => rfl⟩
  have room := pictureBlinks_length blinkStruct fits0 fits1
  obtain ⟨b, all, same⟩ := empty.adds (List.replicate n .tasklet)
    (fun blink member => (visible blink member).1) (by simpa using room)
    (pictureBlinks_distinct fits0 fits1) fun blink _ => List.not_mem_nil
  have showing := all.ticks n
  rw [List.append_nil] at showing
  have nonzero : ∀ arg, .add arg ∈ (pictureBlinks blinkStruct 0 (linesOf text0)
      (linesOf text1)).map .add ++ List.replicate n Request.tasklet → arg.location ≠ 0 := by
    intro arg member
    rcases List.mem_append.mp member with among | among
    · obtain ⟨_, inside, put⟩ := List.mem_map.mp among
      cases put
      exact (visible arg inside).2
    · exact nomatch (List.mem_replicate.mp among).2
  obtain ⟨answers, f, path, served, -, represents⟩ :=
    (represents_cleared screen).serve enough nonzero
  rw [same] at represents
  refine ⟨_, answers, f, addFrames_eq blinkStruct text0 text1 enough0 enough1, served,
    fun row low col near => ?_, fun offset elsewhere => ?_⟩
  · rw [represents.screen]
    exact showing.pictures fits0 fits1 low near
  · rw [represents.screen]
    refine showing.others offset fun blink member => ?_
    obtain ⟨row, low, col, near, place, -⟩ :=
      pictureBlinks_location fits0 fits1 (List.mem_reverse.mp member)
    rw [cellOffset, place]
    exact elsewhere row low col near

/-- Two small pictures, twenty ticks after they were put up. -/
theorem fish_animates_sample : ∃ blinks answers f,
    addFrames Blink.zero [0x61, 0x0A, 0x62] [0x61, 0x63, 0x0A] 2001 = some blinks ∧
      (Fish.cleared fun _ => 0x20).serve 2001
        (blinks.map .add ++ List.replicate 20 .tasklet) = some (answers, f) ∧
      f.screen (pictureOffset 0 1) = 0x63 := by
  have fits0 : FitsScreen (linesOf [0x61, 0x0A, 0x62]) := ⟨by decide, by decide⟩
  have fits1 : FitsScreen (linesOf [0x61, 0x63, 0x0A]) := ⟨by decide, by decide⟩
  have enough : screenCells < 2001 := by decide
  obtain ⟨blinks, answers, f, put, served, cells, -⟩ := fish_animates enough Blink.zero
    (fun _ => 0x20) (by decide) (by decide) fits0 fits1 20
  exact ⟨blinks, answers, f, put, served, cells 0 (by decide) 1 (by decide)⟩

end SmallOs

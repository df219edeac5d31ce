import Challenger1P.Proofs.Keyboard.History

/-!
# What the matrix gives away

The eight rows say which keys are down, but for the case of a letter.

* `mem_closed_iff_testBit`: a contact is one bit of its row, so the rows say which are closed.
* `Key.Ordinary.not_mem_reserved`: the modifiers and the left shift key have their contacts to
  themselves, so what they show is not mistaken for an ordinary key.
* `Key.Ordinary.lowered_eq`: a contact and the shift key say which ordinary key is typed.
* `sameKeys_of_rows_eq`: so equal rows come from the same keys.
-/

namespace Challenger1P

/-! ## Where keys are -/

namespace Key

/-- A key without the difference between a capital and a small letter. -/
def lowered : Key → Key
  | .char c => .char c.toLower
  | key => key

theorem stroke?_eq_of_lowered_eq {one two : Key} (h : one.lowered = two.lowered) :
    one.stroke? = two.stroke? := by
  cases one <;> cases two <;> simp_all [lowered, stroke?]

theorem contacts_capsLock : capsLock.contacts = [⟨0, 0x01⟩] := rfl

theorem contacts_control : control.contacts = [⟨0, 0x40⟩] := rfl

/-- The contacts of the two modifiers and the left shift key. -/
def reserved : List Contact := capsLock.contacts ++ control.contacts ++ [leftShift]

theorem keycaps_inj : ∀ one ∈ keycaps, ∀ two ∈ keycaps, one.contact = two.contact → one = two := by
  decide

theorem keycap_contact : ∀ cap ∈ keycaps, cap.contact ∉ reserved ∧
    (∃ i : Fin 8, cap.contact.mask = 1 <<< i.val.toUInt8) ∧
    ∀ key ∈ [backspace, escape, enter], ∀ s ∈ key.stroke?, cap.contact ≠ s.contact := by decide

theorem Ordinary.not_mem_reserved {key : Key} (h : key.Ordinary) {s : Stroke}
    (hs : key.stroke? = some s) : s.contact ∉ reserved := by
  cases key with
  | char c =>
    obtain ⟨cap, hcap, hcontact, -⟩ := exists_keycap_of_stroke? hs
    rw [hcontact]
    exact (keycap_contact cap hcap).1
  | capsLock => exact absurd h (by decide)
  | control => exact absurd h (by decide)
  | _ => cases hs; decide

/-- A contact is one bit of its row. -/
theorem exists_mask_of_mem_contacts {key : Key} {c : Contact} (h : c ∈ key.contacts) :
    ∃ i : Fin 8, c.mask = 1 <<< i.val.toUInt8 := by
  unfold contacts at h
  cases hs : key.stroke? with
  | none => simp [hs] at h
  | some s =>
    have hshift : ∃ i : Fin 8, leftShift.mask = 1 <<< i.val.toUInt8 := by decide
    have hcontact : ∃ i : Fin 8, s.contact.mask = 1 <<< i.val.toUInt8 := by
      cases key with
      | char c =>
        obtain ⟨cap, hcap, hcontact, -⟩ := exists_keycap_of_stroke? hs
        rw [hcontact]
        exact (keycap_contact cap hcap).2.1
      | _ => cases hs; decide
    rw [hs] at h
    grind

/-- A key without a character on it is not where one with a character is. -/
theorem contact_char_ne {c : Char} {key : Key} {s t : Stroke} (hs : (char c).stroke? = some s)
    (hkey : key ∈ [backspace, escape, enter]) (ht : key.stroke? = some t) :
    s.contact ≠ t.contact := by
  obtain ⟨cap, hcap, hcontact, -⟩ := exists_keycap_of_stroke? hs
  rw [hcontact]
  exact (keycap_contact cap hcap).2.2 key hkey t ht

/-- Two keys typed in the same way are the same key, but for its case. -/
theorem Ordinary.lowered_eq {one two : Key} (hone : one.Ordinary) (htwo : two.Ordinary)
    {s t : Stroke} (hs : one.stroke? = some s) (ht : two.stroke? = some t)
    (hcontact : s.contact = t.contact) (hshifted : s.shifted = t.shifted) :
    one.lowered = two.lowered := by
  have hplain : ∀ {key : Key}, key.Ordinary →
      (∃ c, key = char c) ∨ key ∈ [backspace, escape, enter] := by
    intro key h
    have := (ordinary_iff.1 h).2
    cases key <;> simp_all
  rcases hplain hone with ⟨c, rfl⟩ | hone <;> rcases hplain htwo with ⟨d, rfl⟩ | htwo
  · obtain ⟨cap, hcap, hcap_contact, -, hc⟩ := exists_keycap_of_stroke? hs
    obtain ⟨other, hother, hother_contact, -, hd⟩ := exists_keycap_of_stroke? ht
    have hsame : cap = other := keycaps_inj cap hcap other hother
      (by rw [← hcap_contact, hcontact, hother_contact])
    subst hsame
    grind [lowered]
  · exact absurd hcontact (contact_char_ne hs htwo ht)
  · exact absurd hcontact.symm (contact_char_ne ht hone hs)
  · have hdistinct : ∀ one ∈ [backspace, escape, enter], ∀ two ∈ [backspace, escape, enter],
        ∀ s ∈ one.stroke?, ∀ t ∈ two.stroke?, s.contact = t.contact → one = two := by decide
    rw [hdistinct one hone two htwo s hs t ht hcontact]

theorem mem_contacts_iff {key : Key} {c : Contact} :
    c ∈ key.contacts ↔
      ∃ s ∈ key.stroke?, c = s.contact ∨ c = leftShift ∧ s.shifted = true := by
  unfold contacts
  cases key.stroke? with
  | none => simp
  | some s => cases hs : s.shifted <;> simp [hs]

theorem Ordinary.not_mem_contacts {key : Key} (h : key.Ordinary) {c : Contact} (hc : c ∈ reserved)
    (hne : c ≠ leftShift) : c ∉ key.contacts := by
  rw [mem_contacts_iff]
  rintro ⟨s, hs, rfl | ⟨heq, -⟩⟩
  · exact h.not_mem_reserved hs hc
  · exact hne heq

theorem Ordinary.leftShift_mem_contacts_iff {key : Key} (h : key.Ordinary) :
    leftShift ∈ key.contacts ↔ key.shifted = true := by
  obtain ⟨s, hs, -⟩ := id h
  have hne : leftShift ≠ s.contact := fun heq =>
    Ordinary.not_mem_reserved h hs (heq ▸ by decide)
  rw [mem_contacts_iff, shifted, Option.mem_def.1 hs]
  simp [hne]

end Key

/-! ## What is closed -/

namespace Keyboard

variable {k l : Keyboard}

theorem mem_closed_iff {c : Contact} :
    c ∈ k.closed ↔
      k.capsLock = true ∧ c = ⟨0, 0x01⟩ ∨ k.control = true ∧ c = ⟨0, 0x40⟩ ∨
        ∃ key ∈ k.held, c ∈ key.contacts := by
  rw [closed_eq, keysDown]
  cases k.capsLock <;> cases k.control <;> cases k.held <;>
    simp [Key.contacts_capsLock, Key.contacts_control]

/-- The rows say which contacts are closed. -/
theorem mem_closed_iff_testBit {row i : Fin 8} :
    ⟨row, 1 <<< i.val.toUInt8⟩ ∈ k.closed ↔ (k.rows.get row).toNat.testBit i = true := by
  rw [get_rows, testBit_seen, List.any_eq_true]
  constructor
  · intro h
    exact ⟨_, h, by rw [testBit_row, testBit_row, decide_eq_true rfl, decide_eq_true rfl]; rfl⟩
  · rintro ⟨⟨row', mask⟩, hclosed, hbits⟩
    have hkey := hclosed
    rw [closed_eq, List.mem_flatMap] at hkey
    obtain ⟨key, -, hcontact⟩ := hkey
    obtain ⟨j, rfl⟩ := Key.exists_mask_of_mem_contacts hcontact
    rw [testBit_row, testBit_row, Bool.and_eq_true, decide_eq_true_eq, decide_eq_true_eq] at hbits
    rwa [← hbits.1, hbits.2]

theorem mem_closed_of_rows_eq (h : k.rows = l.rows) {c : Contact} (hc : c ∈ k.closed) :
    c ∈ l.closed := by
  have hkey := hc
  rw [closed_eq, List.mem_flatMap] at hkey
  obtain ⟨key, -, hcontact⟩ := hkey
  obtain ⟨i, hi⟩ := Key.exists_mask_of_mem_contacts hcontact
  obtain ⟨row, mask⟩ := c
  obtain rfl : mask = 1 <<< i.val.toUInt8 := hi
  rw [mem_closed_iff_testBit] at hc ⊢
  rwa [← h]

theorem Possible.capsLock_iff (hk : k.Possible) : k.capsLock = true ↔ ⟨0, 0x01⟩ ∈ k.closed := by
  rw [mem_closed_iff]
  have hheld : ∀ key ∈ k.held, ⟨0, 0x01⟩ ∉ key.contacts := fun key hkey =>
    (hk key hkey).not_mem_contacts (by decide) (by decide)
  grind

theorem Possible.control_iff (hk : k.Possible) : k.control = true ↔ ⟨0, 0x40⟩ ∈ k.closed := by
  rw [mem_closed_iff]
  have hheld : ∀ key ∈ k.held, ⟨0, 0x40⟩ ∉ key.contacts := fun key hkey =>
    (hk key hkey).not_mem_contacts (by decide) (by decide)
  grind

theorem Possible.leftShift_mem_closed_iff (hk : k.Possible) :
    leftShift ∈ k.closed ↔ ∃ key ∈ k.held, key.shifted = true := by
  have hheld : ∀ key ∈ k.held, leftShift ∈ key.contacts ↔ key.shifted = true := fun key hkey =>
    (hk key hkey).leftShift_mem_contacts_iff
  have hcapsLock : leftShift ≠ ⟨0, 0x01⟩ := by decide
  have hcontrol : leftShift ≠ ⟨0, 0x40⟩ := by decide
  rw [mem_closed_iff]
  grind

/-- A contact that is not reserved is closed by the ordinary key alone. -/
theorem mem_closed_iff_of_not_mem_reserved {c : Contact} (hc : c ∉ Key.reserved) :
    c ∈ k.closed ↔ ∃ key ∈ k.held, ∃ s ∈ key.stroke?, c = s.contact := by
  rw [Key.reserved, Key.contacts_capsLock, Key.contacts_control] at hc
  simp only [List.mem_append, List.mem_singleton, not_or] at hc
  simp only [mem_closed_iff, Key.mem_contacts_iff, hc, and_false, false_and, or_false, false_or]

/-! ## The keys that are down -/

/-- The same keys are down on both keyboards, but for the case of a letter. -/
structure SameKeys (k l : Keyboard) : Prop where
  capsLock_eq : k.capsLock = l.capsLock
  control_eq : k.control = l.control
  held_eq : k.held.map Key.lowered = l.held.map Key.lowered

theorem SameKeys.rows_eq (h : k.SameKeys l) : k.rows = l.rows := by
  have hheld : k.held.toList.filterMap Key.stroke? = l.held.toList.filterMap Key.stroke? := by
    have hlowered := h.held_eq
    cases hk : k.held <;> cases hl : l.held <;> rw [hk, hl] at hlowered
    · cases hlowered
    · cases hlowered
    · simp only [Option.toList_some, List.filterMap_cons,
        Key.stroke?_eq_of_lowered_eq (Option.some.inj hlowered)]
  have hclosed : k.closed = l.closed := by
    simp only [closed, keysDown, List.filterMap_append, h.capsLock_eq, h.control_eq, hheld]
  exact Vector.ext fun i hi => by simp only [rows, sense, hclosed]

/-- An ordinary key that is down is down on every keyboard where the same contacts are closed. -/
theorem Possible.exists_lowered_eq (hk : k.Possible) (hl : l.Possible)
    (hclosed : ∀ c, c ∈ k.closed ↔ c ∈ l.closed) {key : Key} (hkey : key ∈ k.held) :
    ∃ other ∈ l.held, key.lowered = other.lowered := by
  obtain ⟨s, hs, -⟩ := id (hk key hkey)
  have hfree : s.contact ∉ Key.reserved := (hk key hkey).not_mem_reserved hs
  have hmem : s.contact ∈ k.closed :=
    (mem_closed_iff_of_not_mem_reserved hfree).2 ⟨key, hkey, s, hs, rfl⟩
  rw [hclosed, mem_closed_iff_of_not_mem_reserved hfree] at hmem
  obtain ⟨other, hother, t, ht, hcontact⟩ := hmem
  refine ⟨other, hother, (hk key hkey).lowered_eq (hl other hother) hs ht hcontact ?_⟩
  -- the shift key is closed on both keyboards or on neither
  have hshift := hclosed leftShift
  rw [hk.leftShift_mem_closed_iff, hl.leftShift_mem_closed_iff, Option.mem_def.1 hkey,
    Option.mem_def.1 hother] at hshift
  simpa [Key.shifted, Option.mem_def.1 hs, Option.mem_def.1 ht, ← Bool.eq_iff_iff] using hshift

theorem sameKeys_of_rows_eq (hk : k.Possible) (hl : l.Possible) (h : k.rows = l.rows) :
    k.SameKeys l := by
  have hclosed : ∀ c, c ∈ k.closed ↔ c ∈ l.closed := fun c =>
    ⟨mem_closed_of_rows_eq h, mem_closed_of_rows_eq h.symm⟩
  constructor
  · rw [Bool.eq_iff_iff, hk.capsLock_iff, hl.capsLock_iff, hclosed]
  · rw [Bool.eq_iff_iff, hk.control_iff, hl.control_iff, hclosed]
  · cases hheld : k.held with
    | some key =>
      obtain ⟨other, hother, heq⟩ := hk.exists_lowered_eq hl hclosed hheld
      rw [Option.mem_def.1 hother, Option.map_some, Option.map_some, heq]
    | none =>
      cases hother : l.held with
      | none => rfl
      | some other =>
        obtain ⟨key, hkey, -⟩ := hl.exists_lowered_eq hk (fun c => (hclosed c).symm) hother
        rw [hheld] at hkey
        cases hkey

/-- What the program reads after it has selected some rows. -/
theorem read_write (k : Keyboard) (mask : UInt8) :
    (Device.read (Device.write k mask)).1 = k.sense mask := rfl

/-- The program sees the rows by reading them one after the other. -/
theorem rows_eq_iff :
    k.rows = l.rows ↔ ∀ row : Fin 8,
      k.sense (1 <<< row.val.toUInt8) = l.sense (1 <<< row.val.toUInt8) := by
  refine ⟨fun h row => ?_, fun h => Vector.ext fun i hi => ?_⟩
  · have hrow : k.rows.get row = l.rows.get row := by rw [h]
    rwa [get_rows, get_rows] at hrow
  · simpa only [rows, Vector.getElem_ofFn] using h ⟨i, hi⟩

/-- Two keyboards show the program the same in every row, read one after the other, exactly if the
same keys are down on both, but for the case of a letter. That is so whatever has happened to them
since they were switched on, and for whatever keys could be down. A mask of two masks shows what each
of them shows. -/
theorem matrix_tells_which_keys_are_down (one two : List KeyEvent) :
    let k := after one
    let l := after two
    ((∀ row : Fin 8,
        (Device.read (Device.write k ((1 : UInt8) <<< row.val.toUInt8))).1 =
          (Device.read (Device.write l ((1 : UInt8) <<< row.val.toUInt8))).1) ↔ k.SameKeys l) ∧
      (∀ k l : Keyboard, k.Possible → l.Possible → (k.rows = l.rows ↔ k.SameKeys l)) ∧
      ∀ mask other : UInt8,
        (Device.read (Device.write k (mask ||| other))).1 =
          (Device.read (Device.write k mask)).1 ||| (Device.read (Device.write k other)).1 := by
  intro k l
  have hiff : ∀ k l : Keyboard, k.Possible → l.Possible → (k.rows = l.rows ↔ k.SameKeys l) :=
    fun k l hk hl => ⟨sameKeys_of_rows_eq hk hl, SameKeys.rows_eq⟩
  refine ⟨?_, hiff, fun mask other => sense_or k mask other⟩
  simp only [read_write, ← rows_eq_iff]
  exact hiff k l (possible_after one) (possible_after two)

/-- The asterisk and the colon are on one key, and the rows tell them apart by the shift key. -/
theorem matrix_tells_which_keys_are_down_by_shift :
    let k : Keyboard := { held := some (.char '*') }
    let l : Keyboard := { held := some (.char ':') }
    k.Possible ∧ l.Possible ∧ k.rows ≠ l.rows ∧ ¬ k.SameKeys l := by
  intro k l
  have hk : k.Possible := by rintro key ⟨⟩; decide
  have hl : l.Possible := by rintro key ⟨⟩; decide
  have hrows : k.rows ≠ l.rows := by decide
  obtain ⟨-, hiff, -⟩ := matrix_tells_which_keys_are_down [] []
  exact ⟨hk, hl, hrows, mt (hiff k l hk hl).2 hrows⟩

end Keyboard

end Challenger1P

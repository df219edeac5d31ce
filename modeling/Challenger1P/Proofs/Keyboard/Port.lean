import Mathlib.Data.List.Nodup
import Challenger1P.Keyboard.Port
import Challenger1P.Proofs.Keyboard.Contacts
import Challenger1P.Proofs.Keyboard.Events

/-!
# The stored keyboard is the keyboard

What a keyboard port has in store can go wrong in ways that a `Keyboard` has no room for: a modifier
that is listed twice and is let go once, a key under the wrong heading, rows that are out of date. A
port that is `Sound` has none of that, and stays sound whatever happens to it (`Sound.apply`).

* `Sound.keyboard_apply`: what happens to a sound port is what happens to its keyboard.
* `Sound.rows_eq`, `Sound.read_eq`: it shows what its keyboard shows.
* `Sound.apply_comm`: events about different parts leave the same in store in either order.
-/

namespace Challenger1P

namespace KeyboardPort

/-! ## Rows -/

theorem get_close (rows : Vector UInt8 8) (c : Contact) (row : Fin 8) :
    (close rows c).get row = rows.get row ||| if c.row = row then c.mask else 0 := by
  show (rows.set c.row.val (rows.get c.row ||| c.mask) c.row.isLt)[row.val] = _
  by_cases h : c.row = row
  · subst h
    rw [Vector.getElem_set_self, if_pos rfl]
  · rw [Vector.getElem_set_ne _ _ (fun heq => h (Fin.ext heq)), if_neg h, UInt8.or_zero]
    rfl

theorem get_foldl_close (contacts : List Contact) (rows : Vector UInt8 8) (row : Fin 8) :
    (contacts.foldl close rows).get row =
      rows.get row ||| seen contacts (1 <<< row.val.toUInt8) := by
  induction contacts generalizing rows with
  | nil => exact UInt8.or_zero.symm
  | cons c rest ih => rw [List.foldl_cons, ih, get_close, seen_cons, UInt8.or_assoc]

/-- A modifier closes one contact. -/
theorem contacts_of_modifier {key : Key} {s : Stroke} (hkey : key.Modifier)
    (hs : key.stroke? = some s) : key.contacts = [s.contact] := by
  rcases Key.modifier_iff.1 hkey with rfl | rfl <;> cases hs <;> rfl

theorem foldl_modifiers {modifiers : List Key} (h : ∀ key ∈ modifiers, key.Modifier)
    (rows : Vector UInt8 8) :
    (modifiers.filterMap Key.stroke?).foldl (fun rows s => close rows s.contact) rows =
      (modifiers.flatMap Key.contacts).foldl close rows := by
  induction modifiers generalizing rows with
  | nil => rfl
  | cons key rest ih =>
    rw [List.forall_mem_cons] at h
    obtain ⟨s, hs, -⟩ := h.1
    rw [List.filterMap_cons_some hs, List.flatMap_cons, contacts_of_modifier h.1 hs]
    exact ih h.2 _

theorem contactRows_eq {modifiers : List Key} (h : ∀ key ∈ modifiers, key.Modifier)
    (ordinary : Option Key) :
    contactRows modifiers ordinary =
      ((modifiers ++ ordinary.toList).flatMap Key.contacts).foldl close (Vector.replicate 8 0) := by
  rw [contactRows, foldl_modifiers h, List.flatMap_append, List.foldl_append]
  cases ordinary with
  | none => rfl
  | some key =>
    rw [Option.toList_some, List.flatMap_singleton, Option.bind_some, Key.contacts]
    cases key.stroke? with
    | none => rfl
    | some s => by_cases hs : s.shifted = true <;> simp [hs]

/-! ## Presses and releases -/

variable {p q : KeyboardPort} {key : Key}

theorem press_of_modifier (h : key.Modifier) :
    p.press key =
      rebuild { p with
        modifiers := if key ∈ p.modifiers then p.modifiers else p.modifiers ++ [key] } := by
  obtain ⟨s, hs, hmodifier⟩ := h
  rw [press, Option.mem_def.1 hs]
  exact if_pos hmodifier

theorem press_of_ordinary (h : key.Ordinary) :
    p.press key = rebuild { p with ordinary := some key } := by
  obtain ⟨s, hs, hmodifier⟩ := h
  rw [press, Option.mem_def.1 hs]
  exact if_neg (Bool.not_eq_true _ ▸ hmodifier)

theorem press_of_unmapped (h : key.stroke? = none) : p.press key = p := by
  rw [press, h]

theorem release_of_modifier (h : key.Modifier) :
    p.release key = rebuild { p with modifiers := p.modifiers.filter (· ≠ key) } := by
  obtain ⟨s, hs, hmodifier⟩ := h
  rw [release, Option.mem_def.1 hs]
  exact if_pos hmodifier

theorem release_of_ordinary (h : key.Ordinary) :
    p.release key =
      rebuild { p with ordinary := if p.ordinary = some key then none else p.ordinary } := by
  obtain ⟨s, hs, hmodifier⟩ := h
  rw [release, Option.mem_def.1 hs]
  exact if_neg (Bool.not_eq_true _ ▸ hmodifier)

theorem release_of_unmapped (h : key.stroke? = none) : p.release key = p := by
  rw [release, h]

/-! ## Soundness -/

/-- Nothing in store contradicts anything else. -/
structure Sound (p : KeyboardPort) : Prop where
  nodup : p.modifiers.Nodup
  modifier : ∀ key ∈ p.modifiers, key.Modifier
  ordinary : ∀ key ∈ p.ordinary, key.Ordinary
  /-- The rows are those of the keys that are down now. -/
  current : p.rows = contactRows p.modifiers p.ordinary

theorem Sound.rebuild (hnodup : p.modifiers.Nodup) (hmodifier : ∀ key ∈ p.modifiers, key.Modifier)
    (hordinary : ∀ key ∈ p.ordinary, key.Ordinary) : p.rebuild.Sound :=
  ⟨hnodup, hmodifier, hordinary, rfl⟩

theorem sound_powerOn : powerOn.Sound := .rebuild (by decide) (by decide) (by decide)

theorem Sound.press (h : p.Sound) (key : Key) : (p.press key).Sound := by
  rcases key.modifier_or_ordinary_or_unmapped with hkey | hkey | hkey
  · rw [press_of_modifier hkey]
    split
    · exact .rebuild h.nodup h.modifier h.ordinary
    · rename_i hnew
      refine .rebuild ?_ ?_ h.ordinary
      · exact h.nodup.append (List.nodup_singleton key) (List.disjoint_singleton.2 hnew)
      · rw [List.forall_mem_append, List.forall_mem_singleton]
        exact ⟨h.modifier, hkey⟩
  · rw [press_of_ordinary hkey]
    refine .rebuild h.nodup h.modifier ?_
    rintro _ ⟨⟩
    exact hkey
  · rw [press_of_unmapped hkey]
    exact h

theorem Sound.release (h : p.Sound) (key : Key) : (p.release key).Sound := by
  rcases key.modifier_or_ordinary_or_unmapped with hkey | hkey | hkey
  · rw [release_of_modifier hkey]
    exact .rebuild (h.nodup.filter _)
      (fun other hother => h.modifier other (List.mem_of_mem_filter hother)) h.ordinary
  · rw [release_of_ordinary hkey]
    split
    · exact .rebuild h.nodup h.modifier nofun
    · exact .rebuild h.nodup h.modifier h.ordinary
  · rw [release_of_unmapped hkey]
    exact h

theorem Sound.apply (h : p.Sound) : (e : KeyEvent) → (p.apply e).Sound
  | .press key => h.press key
  | .release key => h.release key
  | .select _ => ⟨h.nodup, h.modifier, h.ordinary, h.current⟩

/-- The stored rows follow from the rest. -/
theorem Sound.eq_of_parts (hp : p.Sound) (hq : q.Sound) (hselected : p.selected = q.selected)
    (hmodifiers : p.modifiers = q.modifiers) (hordinary : p.ordinary = q.ordinary) : p = q := by
  have hrows : p.rows = q.rows := by rw [hp.current, hq.current, hmodifiers, hordinary]
  cases p
  cases q
  simp_all

/-! ## What a port shows -/

theorem Sound.possible (h : p.Sound) : p.keyboard.Possible := h.ordinary

theorem Sound.mem_keysDown_iff (h : p.Sound) {key : Key} :
    key ∈ p.keyboard.keysDown ↔ key ∈ p.modifiers ++ p.ordinary.toList := by
  have hmodifier : key ∈ p.modifiers → key = .capsLock ∨ key = .control := fun hmem =>
    Key.modifier_iff.1 (h.modifier key hmem)
  rw [Keyboard.mem_keysDown_iff, List.mem_append, Option.mem_toList]
  simp only [keyboard, decide_eq_true_eq]
  grind

theorem Sound.get_rows_eq_seen (h : p.Sound) (row : Fin 8) :
    p.rows.get row = seen ((p.modifiers ++ p.ordinary.toList).flatMap Key.contacts)
      (1 <<< row.val.toUInt8) := by
  have hblank : (Vector.replicate 8 (0 : UInt8)).get row = 0 := Vector.getElem_replicate row.isLt
  rw [h.current, contactRows_eq h.modifier, get_foldl_close, hblank, UInt8.zero_or]

theorem Sound.rows_eq (h : p.Sound) : p.rows = p.keyboard.rows := by
  refine Vector.ext fun row hrow => ?_
  show p.rows.get ⟨row, hrow⟩ = p.keyboard.rows.get ⟨row, hrow⟩
  rw [h.get_rows_eq_seen, Keyboard.get_rows, Keyboard.closed_eq]
  refine seen_congr (fun c => ?_) _
  simp only [List.mem_flatMap, h.mem_keysDown_iff]

/-- Modifiers are typed without the shift key. -/
theorem seen_modifiers {modifiers : List Key} (h : ∀ key ∈ modifiers, key.Modifier)
    (row : Fin 8) :
    seen (modifiers.flatMap Key.contacts) (1 <<< row.val.toUInt8) =
      modifiers.foldr (fun key value => key.bits row ||| value) 0 := by
  induction modifiers with
  | nil => rfl
  | cons key rest ih =>
    rw [List.forall_mem_cons] at h
    have hshifted : key.shifted = false := by
      rcases Key.modifier_iff.1 h.1 with rfl | rfl <;> rfl
    rw [List.flatMap_cons, seen_append, seen_contacts, ih h.2, hshifted, List.foldr_cons]
    simp

/-- A row shows the keys that are down, and the left shift key if the ordinary one needs it. -/
theorem Sound.get_rows (h : p.Sound) (row : Fin 8) :
    p.rows.get row =
      p.modifiers.foldr (fun key value => key.bits row ||| value) 0 |||
      p.ordinary.elim 0 (·.bits row) |||
      (if leftShift.row = row ∧ p.ordinary.any Key.shifted then leftShift.mask else 0) := by
  rw [h.get_rows_eq_seen, List.flatMap_append, seen_append, seen_modifiers h.modifier,
    UInt8.or_assoc]
  congr 1
  cases p.ordinary <;> simp [seen_contacts]

theorem Sound.sense_eq (h : p.Sound) : p.sense = p.keyboard.sense p.selected := by
  rw [sense, foldl_or, UInt8.zero_or, Keyboard.sense_eq, ← h.rows_eq]
  simp only [masked_eq_testBit]

theorem Sound.read_eq (h : p.Sound) :
    Device.read p = ((Device.read p.keyboard).1, p) := congrArg (·, p) h.sense_eq

/-! ## One event -/

theorem keyboard_powerOn : powerOn.keyboard = {} := rfl

theorem keyboard_press (p : KeyboardPort) (key : Key) :
    (p.press key).keyboard = p.keyboard.press key := by
  rcases key.modifier_or_ordinary_or_unmapped with hkey | hkey | hkey
  · have hmem (other : Key) :
        other ∈ (if key ∈ p.modifiers then p.modifiers else p.modifiers ++ [key]) ↔
          other ∈ p.modifiers ∨ other = key := by
      split <;> grind
    rw [press_of_modifier hkey, Keyboard.press_eq]
    rcases Key.modifier_iff.1 hkey with rfl | rfl <;> simp [keyboard, rebuild, hmem]
  · obtain ⟨-, hcapsLock, hcontrol⟩ := Key.ordinary_iff.1 hkey
    rw [press_of_ordinary hkey, Keyboard.press_eq, if_neg hcapsLock, if_neg hcontrol, if_pos hkey]
    rfl
  · rw [press_of_unmapped hkey, Keyboard.press_of_stroke?_eq_none hkey]

theorem Sound.keyboard_release (h : p.Sound) (key : Key) :
    (p.release key).keyboard = p.keyboard.release key := by
  rcases key.modifier_or_ordinary_or_unmapped with hkey | hkey | hkey
  · rw [release_of_modifier hkey, Keyboard.release_eq]
    rcases Key.modifier_iff.1 hkey with rfl | rfl <;> simp [keyboard, KeyboardPort.rebuild]
  · obtain ⟨-, hcapsLock, hcontrol⟩ := Key.ordinary_iff.1 hkey
    rw [release_of_ordinary hkey, Keyboard.release_eq, if_neg hcapsLock, if_neg hcontrol]
    show keyboard (KeyboardPort.rebuild _) = if p.ordinary = some key then _ else _
    split <;> rfl
  · rw [release_of_unmapped hkey, h.possible.release_of_stroke?_eq_none hkey]

theorem Sound.keyboard_apply (h : p.Sound) :
    (e : KeyEvent) → (p.apply e).keyboard = p.keyboard.apply e
  | .press key => keyboard_press p key
  | .release key => h.keyboard_release key
  | .select _ => rfl

/-! ## Two events -/

theorem modifiers_apply_of_part {e : KeyEvent} (he : e.part ≠ .modifiers) (p : KeyboardPort) :
    (p.apply e).modifiers = p.modifiers := by
  rw [Ne, KeyEvent.part_eq_modifiers_iff] at he
  cases e with
  | press key =>
    rcases key.modifier_or_ordinary_or_unmapped with hkey | hkey | hkey
    · exact absurd ⟨key, hkey, Or.inl rfl⟩ he
    · show (p.press key).modifiers = _
      rw [press_of_ordinary hkey]
      rfl
    · exact congrArg modifiers (press_of_unmapped hkey)
  | release key =>
    rcases key.modifier_or_ordinary_or_unmapped with hkey | hkey | hkey
    · exact absurd ⟨key, hkey, Or.inr rfl⟩ he
    · show (p.release key).modifiers = _
      rw [release_of_ordinary hkey]
      rfl
    · exact congrArg modifiers (release_of_unmapped hkey)
  | select rows => rfl

/-- The list of modifiers goes by itself and what happens. -/
theorem modifiers_apply_congr (e : KeyEvent) (h : p.modifiers = q.modifiers) :
    (p.apply e).modifiers = (q.apply e).modifiers := by
  by_cases he : e.part = .modifiers
  · obtain ⟨key, hkey, rfl | rfl⟩ := KeyEvent.part_eq_modifiers_iff.1 he
    · show (p.press key).modifiers = (q.press key).modifiers
      rw [press_of_modifier hkey, press_of_modifier hkey, h]
      rfl
    · show (p.release key).modifiers = (q.release key).modifiers
      rw [release_of_modifier hkey, release_of_modifier hkey, h]
      rfl
  · rw [modifiers_apply_of_part he, modifiers_apply_of_part he, h]

/-- Events about different parts of a sound port leave the same in store in either order. -/
theorem Sound.apply_comm (h : p.Sound) {one two : KeyEvent} (hpart : one.part ≠ two.part) :
    (p.apply one).apply two = (p.apply two).apply one := by
  have hkeyboard : ((p.apply one).apply two).keyboard = ((p.apply two).apply one).keyboard := by
    rw [(h.apply one).keyboard_apply, h.keyboard_apply, (h.apply two).keyboard_apply,
      h.keyboard_apply, Keyboard.apply_comm _ hpart]
  refine ((h.apply one).apply two).eq_of_parts ((h.apply two).apply one)
    (congrArg Keyboard.selected hkeyboard) ?_ (congrArg Keyboard.held hkeyboard)
  exact KeyEvent.comm_of_part modifiers_apply_congr (fun q _ he => modifiers_apply_of_part he q) p
    hpart

end KeyboardPort

end Challenger1P

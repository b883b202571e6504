import Mathlib.Data.List.InsertIdx
import Placard.Family.Edit
import Placard.Proofs.Template.Keys

/-!
# What an edit of a template leaves alone

A key addresses one part of a template: its canvas, or the body of the first
layer that has the key. Every edit of a template is addressed to one key, and
the parts under all others stay what they were. What is read under a key depends
on the part alone, so this one statement for each edit is all that is needed of
the keys that it is not addressed to.
-/

namespace Placard

/-! ## Lists of layers -/

theorem findLayer?_append (key : String) (ls ms : List Layer) :
    findLayer? key (ls ++ ms) = (findLayer? key ls).or (findLayer? key ms) := by
  induction ls with
  | nil => rfl
  | cons l ls ih =>
      rw [List.cons_append, findLayer?, findLayer?]
      split
      · rfl
      · exact ih

theorem findLayer?_singleton_of_ne {key : String} {l : Layer}
    (h : key ≠ l.key) : findLayer? key [l] = none := by
  rw [findLayer?, if_neg (Ne.symm h), findLayer?]

theorem findLayer?_replaceBody (key : String) (body : LayerBody)
    (ls : List Layer) :
    findLayer? key (replaceBody key body ls) =
      (findLayer? key ls).map fun l => { l with body := body } := by
  induction ls with
  | nil => rfl
  | cons l ls ih =>
      rw [replaceBody, findLayer?]
      split
      · next hl => rw [findLayer?, if_pos hl, Option.map_some]
      · next hl => rw [findLayer?, if_neg hl, ih]

theorem findLayer?_replaceBody_of_ne {key key' : String} (h : key' ≠ key)
    (body : LayerBody) (ls : List Layer) :
    findLayer? key' (replaceBody key body ls) = findLayer? key' ls := by
  induction ls with
  | nil => rfl
  | cons l ls ih =>
      rw [replaceBody]
      split
      · next hl =>
          have hne : l.key ≠ key' := fun heq => h (heq ▸ hl)
          rw [findLayer?, findLayer?, if_neg hne, if_neg hne]
      · rw [findLayer?, findLayer?, ih]

theorem findLayer?_removeLayer_of_ne {key key' : String} (h : key' ≠ key)
    (ls : List Layer) :
    findLayer? key' (removeLayer key ls) = findLayer? key' ls := by
  induction ls with
  | nil => rfl
  | cons l ls ih =>
      rw [removeLayer]
      split
      · next hl =>
          have hne : l.key ≠ key' := fun heq => h (heq ▸ hl)
          rw [findLayer?, if_neg hne]
      · rw [findLayer?, findLayer?, ih]

theorem findLayer?_eq_none_iff {key : String} {ls : List Layer} :
    findLayer? key ls = none ↔ key ∉ ls.map Layer.key := by
  induction ls with
  | nil => simp [findLayer?]
  | cons l ls ih =>
      rw [findLayer?, List.map_cons, List.mem_cons, not_or]
      split
      · next hl => simp [hl]
      · next hl => simp [ih, Ne.symm hl]

theorem findLayer?_removeLayer {key : String} {ls : List Layer}
    (h : (ls.map Layer.key).Nodup) :
    findLayer? key (removeLayer key ls) = none := by
  induction ls with
  | nil => rfl
  | cons l ls ih =>
      rw [List.map_cons, List.nodup_cons] at h
      rw [removeLayer]
      split
      · next hl => exact findLayer?_eq_none_iff.mpr (hl ▸ h.1)
      · next hl => rw [findLayer?, if_neg hl, ih h.2]

theorem findLayer?_insertIdx_of_ne {key : String} {l : Layer}
    (h : key ≠ l.key) (ls : List Layer) (n : Nat) :
    findLayer? key (ls.insertIdx n l) = findLayer? key ls := by
  induction ls generalizing n with
  | nil =>
      cases n with
      | zero => exact findLayer?_singleton_of_ne h
      | succ n => rfl
  | cons m ls ih =>
      cases n with
      | zero => rw [List.insertIdx_zero, findLayer?, if_neg (Ne.symm h)]
      | succ n => rw [List.insertIdx_succ_cons, findLayer?, findLayer?, ih]

theorem findLayer?_insertIdx {l : Layer} {ls : List Layer}
    (h : findLayer? l.key ls = none) {n : Nat} (hn : n ≤ ls.length) :
    findLayer? l.key (ls.insertIdx n l) = some l := by
  induction ls generalizing n with
  | nil =>
      obtain rfl : n = 0 := Nat.le_zero.mp hn
      rw [List.insertIdx_zero, findLayer?, if_pos rfl]
  | cons m ls ih =>
      cases n with
      | zero => rw [List.insertIdx_zero, findLayer?, if_pos rfl]
      | succ n =>
          rw [findLayer?] at h
          split at h
          · cases h
          · next hm =>
              rw [List.insertIdx_succ_cons, findLayer?, if_neg hm]
              exact ih h (Nat.le_of_succ_le_succ hn)

theorem keys_replaceBody (key : String) (body : LayerBody) (ls : List Layer) :
    (replaceBody key body ls).map Layer.key = ls.map Layer.key := by
  induction ls with
  | nil => rfl
  | cons l ls ih =>
      rw [replaceBody]
      split
      · rfl
      · rw [List.map_cons, List.map_cons, ih]

theorem mem_replaceBody {key : String} {body : LayerBody} {ls : List Layer}
    {m : Layer} (h : m ∈ replaceBody key body ls) :
    m ∈ ls ∨ ∃ l, findLayer? key ls = some l ∧ m = { l with body := body } := by
  induction ls with
  | nil => cases h
  | cons l ls ih =>
      rw [replaceBody] at h
      rw [findLayer?]
      split at h
      · next hl =>
          rw [if_pos hl]
          rcases List.mem_cons.mp h with rfl | h
          · exact Or.inr ⟨l, rfl, rfl⟩
          · exact Or.inl (List.mem_cons_of_mem _ h)
      · next hl =>
          rw [if_neg hl]
          rcases List.mem_cons.mp h with rfl | h
          · exact Or.inl List.mem_cons_self
          · exact (ih h).imp_left (List.mem_cons_of_mem _)

theorem removeLayer_sublist (key : String) (ls : List Layer) :
    (removeLayer key ls).Sublist ls := by
  induction ls with
  | nil => exact List.Sublist.refl _
  | cons l ls ih =>
      rw [removeLayer]
      split
      · exact List.sublist_cons_self l ls
      · exact ih.cons_cons l

/-- What is written to a slot is stored in it. -/
theorem Slot.exists_put {α : Type} {s : Slot α} {p : Property} {v : Value}
    {a a' : α} (h : s.write p v a = .ok a') :
    ∃ x, s.kind.store? p v = .ok x ∧ s.put x a = a' := by
  unfold write at h
  cases hx : s.kind.store? p v with
  | error e =>
      rw [hx] at h
      cases h
  | ok x =>
      rw [hx] at h
      exact ⟨x, rfl, Except.ok.inj h⟩

namespace Template

variable {t t' : Template} {key key' : String} {p : Property} {v : Value}
  {l : Layer}

theorem hasLayer_iff : t.hasLayer key = true ↔ key ∈ t.keys := by
  rw [hasLayer, Option.isSome_iff_ne_none, layer?, ne_eq,
    findLayer?_eq_none_iff, not_not, keys]

theorem layer?_eq_none_iff : t.layer? key = none ↔ t.hasLayer key = false := by
  rw [hasLayer, Option.isSome_eq_false_iff, Option.isNone_iff_eq_none]

theorem hasLayer_congr (h : t'.layer? key = t.layer? key) :
    t'.hasLayer key = t.hasLayer key := by
  rw [hasLayer, h, hasLayer]

theorem hasLayer_of_layer? (h : t.layer? key = some l) :
    t.hasLayer key = true := by
  rw [hasLayer, h]
  rfl

/-! ## Parts -/

/-- What a key addresses. -/
inductive Part where
  | canvas (size : Size) (background : Color)
  | layer (body : LayerBody)
deriving DecidableEq

/-- What is under a key: the canvas, or the first layer of that key. -/
def part? (t : Template) (key : String) : Option Part :=
  if key = canvasKey then some (.canvas t.canvas t.background)
  else (t.layer? key).map fun l => .layer l.body

theorem part?_canvas (t : Template) :
    t.part? canvasKey = some (.canvas t.canvas t.background) := if_pos rfl

theorem part?_of_ne (t : Template) (h : key ≠ canvasKey) :
    t.part? key = (t.layer? key).map fun l => .layer l.body := if_neg h

theorem isSome_part? :
    (t.part? key).isSome = (decide (key = canvasKey) || t.hasLayer key) := by
  unfold part?
  split
  · next h => simp [h]
  · next h => simp [h, hasLayer]

theorem part?_eq_none (hkey : key ≠ canvasKey) (h : t.hasLayer key = false) :
    t.part? key = none := by
  rw [part?_of_ne t hkey, layer?_eq_none_iff.mpr h, Option.map_none]

theorem part?_congr (hcanvas : t'.canvas = t.canvas)
    (hcolor : t'.background = t.background)
    (hlayer : key = canvasKey ∨ t'.layer? key = t.layer? key) :
    t'.part? key = t.part? key := by
  unfold part?
  split
  · rw [hcanvas, hcolor]
  · next h => rw [hlayer.resolve_left h]

/-- What is read under a key depends on what the key addresses. -/
theorem get?_of_part? (h : t'.part? key = t.part? key) (p : Property) :
    t'.get? key p = t.get? key p := by
  unfold part? at h
  unfold get?
  split
  · next hkey =>
      rw [if_pos hkey, if_pos hkey, Option.some.injEq, Part.canvas.injEq] at h
      obtain ⟨hsize, hcolor⟩ := h
      have hwidth : t'.width = t.width := congrArg Size.width hsize
      have hheight : t'.height = t.height := congrArg Size.height hsize
      cases p <;>
        simp only [slot?, Option.map_some, Option.map_none, Slot.read, hwidth,
          hheight, hcolor]
  · next hkey =>
      rw [if_neg hkey, if_neg hkey] at h
      cases hl : t.layer? key with
      | none =>
          rw [hl, Option.map_none, Option.map_eq_none_iff] at h
          rw [h]
      | some l =>
          rw [hl, Option.map_some, Option.map_eq_some_iff] at h
          obtain ⟨l', hl', hbody⟩ := h
          rw [hl', Option.bind_some, Option.bind_some, Part.layer.inj hbody]

theorem hasLayer_of_get? (h : t.get? key p = some v) (hkey : key ≠ canvasKey) :
    t.hasLayer key = true := by
  rw [get?, if_neg hkey] at h
  obtain ⟨l, hl, -⟩ := Option.bind_eq_some_iff.mp h
  exact hasLayer_of_layer? hl

/-! ## Edits, one key each -/

/-- Writing under the key of the canvas changes the canvas, and under another
key the body of the layer. -/
theorem set_cases (h : t.set key p v = .ok t') :
    (key = canvasKey ∧ ∃ s, slot? p = some s ∧ s.write p v t = .ok t') ∨
    (key ≠ canvasKey ∧ ∃ l body, t.layer? key = some l ∧
      l.body.set key p v = .ok body ∧
      t' = { t with layers := replaceBody key body t.layers }) := by
  unfold set at h
  split at h
  · next hkey =>
      split at h
      · next s hs => exact Or.inl ⟨hkey, s, hs, h⟩
      · cases h
  · next hkey =>
      split at h
      · next l hl =>
          cases hbody : l.body.set key p v with
          | error e =>
              rw [hbody] at h
              cases h
          | ok body =>
              rw [hbody] at h
              cases h
              exact Or.inr ⟨hkey, l, body, hl, hbody, rfl⟩
      · cases h

theorem exists_slot_of_set (h : t.set canvasKey p v = .ok t') :
    ∃ s, slot? p = some s ∧ s.write p v t = .ok t' := by
  rcases set_cases h with ⟨-, hwrite⟩ | ⟨hkey, -⟩
  · exact hwrite
  · exact absurd rfl hkey

theorem exists_layer_of_set (h : t.set key p v = .ok t')
    (hkey : key ≠ canvasKey) :
    ∃ l body, t.layer? key = some l ∧ l.body.set key p v = .ok body ∧
      t' = { t with layers := replaceBody key body t.layers } := by
  rcases set_cases h with ⟨hcanvas, -⟩ | ⟨-, hlayer⟩
  · exact absurd hcanvas hkey
  · exact hlayer

/-- Writing to the canvas leaves the layers as they are. -/
theorem of_write_slot {s : Slot Template} (hs : slot? p = some s)
    (h : s.write p v t = .ok t') : t'.id = t.id ∧ t'.layers = t.layers := by
  obtain ⟨x, -, rfl⟩ := Slot.exists_put h
  cases p <;> cases hs <;> exact ⟨rfl, rfl⟩

/-- Writing to the canvas changes a side, or the background, and that to a
colour that does not depend on the template. -/
theorem set_canvas_cases (h : t.set canvasKey p v = .ok t') :
    t'.layers = t.layers ∧
      ((p = .backgroundColor ∧ ∃ color, t'.background = color ∧
          ∀ u : Template, u.set canvasKey p v = .ok { u with
            background := color }) ∨
        ((p = .width ∨ p = .height) ∧ t'.background = t.background)) := by
  obtain ⟨s, hs, hwrite⟩ := exists_slot_of_set h
  refine ⟨(of_write_slot hs hwrite).2, ?_⟩
  obtain ⟨x, hx, rfl⟩ := Slot.exists_put hwrite
  cases p with
  | backgroundColor =>
      cases hs
      refine Or.inl ⟨rfl, x, rfl, fun u => ?_⟩
      rw [set, if_pos rfl]
      show Slot.write _ _ _ u = _
      rw [Slot.write, hx]
      rfl
  | width =>
      cases hs
      exact Or.inr ⟨Or.inl rfl, rfl⟩
  | height =>
      cases hs
      exact Or.inr ⟨Or.inr rfl, rfl⟩
  | _ => cases hs

/-- Writing under the key of a layer depends on the layers alone. -/
theorem set_of_layers {u : Template} (hkey : key ≠ canvasKey)
    (h : u.layers = t.layers) (p : Property) (v : Value) :
    u.set key p v = (t.set key p v).map fun t' => { u with
      layers := t'.layers } := by
  unfold set layer?
  rw [if_neg hkey, if_neg hkey, h]
  cases findLayer? key t.layers with
  | none => rfl
  | some l =>
      dsimp only
      cases l.body.set key p v <;> rfl

theorem background_of_set (h : t.set key p v = .ok t')
    (hkey : key ≠ canvasKey) : t'.background = t.background := by
  obtain ⟨l, body, -, -, rfl⟩ := exists_layer_of_set h hkey
  rfl

theorem id_of_set (h : t.set key p v = .ok t') : t'.id = t.id := by
  rcases set_cases h with ⟨-, s, hs, hwrite⟩ | ⟨-, l, body, -, -, rfl⟩
  · exact (of_write_slot hs hwrite).1
  · rfl

theorem keys_of_set (h : t.set key p v = .ok t') : t'.keys = t.keys := by
  rcases set_cases h with ⟨-, s, hs, hwrite⟩ | ⟨-, l, body, -, -, rfl⟩
  · rw [keys, (of_write_slot hs hwrite).2, keys]
  · exact keys_replaceBody _ _ _

theorem hasLayer_of_set (h : t.set key p v = .ok t') (k : String) :
    t'.hasLayer k = t.hasLayer k := by
  rw [Bool.eq_iff_iff, hasLayer_iff, hasLayer_iff, keys_of_set h]

theorem hasLayer_self_of_set (h : t.set key p v = .ok t')
    (hkey : key ≠ canvasKey) : t.hasLayer key = true := by
  obtain ⟨l, body, hl, -⟩ := exists_layer_of_set h hkey
  exact hasLayer_of_layer? hl

theorem layer?_of_set (h : t.set key p v = .ok t')
    (hne : key' ≠ key ∨ key = canvasKey) : t'.layer? key' = t.layer? key' := by
  rcases set_cases h with ⟨-, s, hs, hwrite⟩ | ⟨hkey, l, body, -, -, rfl⟩
  · rw [layer?, (of_write_slot hs hwrite).2, layer?]
  · exact findLayer?_replaceBody_of_ne (hne.resolve_right hkey) _ _

theorem part?_of_set (h : t.set key p v = .ok t') (hne : key' ≠ key) :
    t'.part? key' = t.part? key' := by
  rcases set_cases h with ⟨rfl, s, hs, hwrite⟩ | ⟨-, l, body, -, -, rfl⟩
  · rw [part?_of_ne _ hne, part?_of_ne _ hne, layer?,
      (of_write_slot hs hwrite).2, layer?]
  · exact part?_congr rfl rfl (Or.inr (findLayer?_replaceBody_of_ne hne _ _))

theorem layer?_dropLayer_of_ne (h : key' ≠ key) :
    (t.dropLayer key).layer? key' = t.layer? key' :=
  findLayer?_removeLayer_of_ne h _

theorem hasLayer_dropLayer (hd : t.DistinctKeys) (key : String) :
    (t.dropLayer key).hasLayer key = false :=
  layer?_eq_none_iff.mp (findLayer?_removeLayer hd)

theorem hasLayer_of_dropLayer (h : t.hasLayer key = false) :
    (t.dropLayer key').hasLayer key = false := by
  rw [← Bool.not_eq_true, hasLayer_iff] at h ⊢
  exact fun hmem => h
    (((removeLayer_sublist key' t.layers).map Layer.key).subset hmem)

theorem part?_dropLayer_of_ne (hne : key' = canvasKey ∨ key' ≠ key) :
    (t.dropLayer key).part? key' = t.part? key' :=
  part?_congr rfl rfl (hne.imp_right fun h => findLayer?_removeLayer_of_ne h _)

theorem part?_dropLayer (hd : t.DistinctKeys) (h : key ≠ canvasKey) :
    (t.dropLayer key).part? key = none := by
  rw [part?_of_ne _ h, layer?, dropLayer, findLayer?_removeLayer hd,
    Option.map_none]

theorem distinctKeys_dropLayer (hd : t.DistinctKeys) (key : String) :
    (t.dropLayer key).DistinctKeys :=
  List.Nodup.sublist ((removeLayer_sublist key t.layers).map _) hd

theorem layer?_pushLayer (key : String) :
    (t.pushLayer l).layer? key = (t.layer? key).or (findLayer? key [l]) :=
  findLayer?_append _ _ _

theorem layer?_pushLayer_of_ne (h : key ≠ l.key) :
    (t.pushLayer l).layer? key = t.layer? key := by
  rw [layer?_pushLayer, findLayer?_singleton_of_ne h, Option.or_none]

theorem layer?_pushLayer_self (hnew : t.hasLayer l.key = false) :
    (t.pushLayer l).layer? l.key = some l := by
  rw [layer?_pushLayer, layer?_eq_none_iff.mpr hnew, Option.none_or, findLayer?,
    if_pos rfl]

theorem hasLayer_pushLayer (hnew : t.hasLayer l.key = false) :
    (t.pushLayer l).hasLayer l.key = true :=
  hasLayer_of_layer? (layer?_pushLayer_self hnew)

theorem hasLayer_pushLayer_of_ne (hne : key ≠ l.key)
    (h : t.hasLayer key = false) : (t.pushLayer l).hasLayer key = false := by
  rw [← layer?_eq_none_iff] at h ⊢
  rw [layer?_pushLayer_of_ne hne, h]

theorem part?_pushLayer_of_ne (hne : key = canvasKey ∨ key ≠ l.key) :
    (t.pushLayer l).part? key = t.part? key :=
  part?_congr rfl rfl (hne.imp_right layer?_pushLayer_of_ne)

theorem part?_pushLayer (hnew : t.hasLayer l.key = false)
    (h : l.key ≠ canvasKey) :
    (t.pushLayer l).part? l.key = some (.layer l.body) := by
  rw [part?_of_ne _ h, layer?_pushLayer_self hnew, Option.map_some]

theorem distinctKeys_pushLayer (hd : t.DistinctKeys)
    (hnew : t.hasLayer l.key = false) : (t.pushLayer l).DistinctKeys := by
  have hkey : l.key ∉ t.keys := by
    rw [← hasLayer_iff, hnew]
    exact Bool.false_ne_true
  unfold DistinctKeys keys pushLayer
  rw [List.map_append, List.map_singleton]
  refine List.nodup_append.mpr ⟨hd, List.nodup_singleton _, ?_⟩
  intro a ha b hb heq
  exact hkey (List.mem_singleton.mp hb ▸ heq ▸ ha)

theorem layer?_placeLayer_of_ne (place : Nat) (h : key ≠ l.key) :
    (t.placeLayer l place).layer? key = t.layer? key := by
  unfold placeLayer
  split
  · exact findLayer?_replaceBody_of_ne h _ _
  · exact findLayer?_insertIdx_of_ne h _ _

theorem part?_placeLayer_of_ne (place : Nat)
    (hne : key = canvasKey ∨ key ≠ l.key) :
    (t.placeLayer l place).part? key = t.part? key := by
  have hcanvas : (t.placeLayer l place).canvas = t.canvas := by
    unfold placeLayer
    split <;> rfl
  have hbackground : (t.placeLayer l place).background = t.background := by
    unfold placeLayer
    split <;> rfl
  exact part?_congr hcanvas hbackground
    (hne.imp_right (layer?_placeLayer_of_ne place))

theorem layer?_placeLayer (t : Template) (l : Layer) (place : Nat) :
    (t.placeLayer l place).layer? l.key = some l := by
  unfold placeLayer
  split
  · next hold =>
      obtain ⟨l', hl'⟩ := Option.isSome_iff_exists.mp hold
      obtain ⟨-, hkey⟩ := mem_of_findLayer? hl'
      have hfind := findLayer?_replaceBody l.key l.body t.layers
      rw [← layer?, hl', Option.map_some, hkey] at hfind
      exact hfind
  · next hnew =>
      rw [Bool.not_eq_true] at hnew
      exact findLayer?_insertIdx (layer?_eq_none_iff.mpr hnew)
        (Nat.min_le_right _ _)

theorem hasLayer_placeLayer (t : Template) (l : Layer) (place : Nat) :
    (t.placeLayer l place).hasLayer l.key = true :=
  hasLayer_of_layer? (layer?_placeLayer t l place)

theorem part?_placeLayer (place : Nat) (h : l.key ≠ canvasKey) :
    (t.placeLayer l place).part? l.key = some (.layer l.body) := by
  rw [part?_of_ne _ h, layer?_placeLayer, Option.map_some]

theorem distinctKeys_placeLayer (hd : t.DistinctKeys) (l : Layer)
    (place : Nat) : (t.placeLayer l place).DistinctKeys := by
  unfold placeLayer
  split
  · unfold DistinctKeys keys
    rw [keys_replaceBody]
    exact hd
  · next hnew =>
      have hpush := distinctKeys_pushLayer hd (Bool.not_eq_true _ ▸ hnew)
      have hperm :=
        List.perm_insertIdx l t.layers (Nat.min_le_right place t.layers.length)
      have hperm' := hperm.trans (List.perm_append_singleton l t.layers).symm
      exact (hperm'.map Layer.key).nodup_iff.mpr hpush

/-! ## Which parts are there -/

theorem isSome_part?_of_hasLayer (h : t.hasLayer key = true) :
    (t.part? key).isSome := by
  rw [isSome_part?, h]
  exact Bool.or_true _

theorem isSome_part?_of_set (h : t.set key p v = .ok t') (k : String) :
    (t'.part? k).isSome = (t.part? k).isSome := by
  rw [isSome_part?, isSome_part?, hasLayer_of_set h]

theorem hasLayer_getD_set (t : Template) (key : String) (p : Property)
    (v : Value) (k : String) :
    ((t.set key p v).toOption.getD t).hasLayer k = t.hasLayer k := by
  cases h : t.set key p v with
  | error e => rfl
  | ok t' => exact hasLayer_of_set h k

theorem layer?_getD_set (hne : key' ≠ key ∨ key = canvasKey) (t : Template)
    (p : Property) (v : Value) :
    ((t.set key p v).toOption.getD t).layer? key' = t.layer? key' := by
  cases h : t.set key p v with
  | error e => rfl
  | ok t' => exact layer?_of_set h hne

theorem isSome_part?_getD_set (t : Template) (key : String) (p : Property)
    (v : Value) (k : String) :
    (((t.set key p v).toOption.getD t).part? k).isSome =
      (t.part? k).isSome := by
  rw [isSome_part?, isSome_part?, hasLayer_getD_set]

/-- What the writing of each value keeps, the taking of all of them keeps. -/
theorem takeValues_induct {P : Template → Prop}
    {values : List (String × Property × Value)}
    (hset : ∀ {t t' : Template} {key : String} {p : Property} {v : Value},
      (key, p, v) ∈ values → t.set key p v = .ok t' → P t → P t')
    {t : Template} (ht : P t) : P (t.takeValues values).1 := by
  induction values generalizing t with
  | nil => exact ht
  | cons value rest ih =>
      obtain ⟨key, p, v⟩ := value
      have hrest {t : Template} (ht : P t) : P (t.takeValues rest).1 :=
        ih (fun hmem => hset (List.mem_cons_of_mem _ hmem)) ht
      rw [takeValues]
      split
      · exact hrest ht
      · split
        · exact hrest ht
        · split
          · exact hrest ht
          · next t' ht' => exact hrest (hset List.mem_cons_self ht' ht)

theorem keys_takeValues (t : Template)
    (values : List (String × Property × Value)) :
    (t.takeValues values).1.keys = t.keys :=
  takeValues_induct (P := fun t' => t'.keys = t.keys)
    (fun _ hset h => (keys_of_set hset).trans h) rfl

theorem hasLayer_takeValues (t : Template)
    (values : List (String × Property × Value)) (k : String) :
    (t.takeValues values).1.hasLayer k = t.hasLayer k := by
  rw [Bool.eq_iff_iff, hasLayer_iff, hasLayer_iff, keys_takeValues]

/-- Values that are not addressed to a layer leave it as it is. -/
theorem layer?_takeValues {values : List (String × Property × Value)}
    (h : ∀ q v, (key, q, v) ∈ values → key = canvasKey) (t : Template) :
    (t.takeValues values).1.layer? key = t.layer? key := by
  refine takeValues_induct (P := fun t' => t'.layer? key = t.layer? key) ?_ rfl
  intro t t' layer p v hmem hset hold
  refine (layer?_of_set hset ?_).trans hold
  by_cases hkey : key = layer
  · subst hkey
    exact Or.inr (h p v hmem)
  · exact Or.inl hkey

theorem isSome_part?_takeValues (t : Template)
    (values : List (String × Property × Value)) (k : String) :
    ((t.takeValues values).1.part? k).isSome = (t.part? k).isSome := by
  rw [isSome_part?, isSome_part?, hasLayer_takeValues]

theorem isSome_part?_pushLayer (l : Layer) (h : (t.part? key).isSome) :
    ((t.pushLayer l).part? key).isSome := by
  rw [isSome_part?, Bool.or_eq_true] at h ⊢
  refine h.imp_right fun hkey => ?_
  rw [hasLayer, layer?_pushLayer, Option.isSome_or]
  exact Bool.or_eq_true_iff.mpr (Or.inl hkey)

theorem isSome_part?_placeLayer (l : Layer) (place : Nat)
    (h : (t.part? key).isSome) : ((t.placeLayer l place).part? key).isSome := by
  by_cases hkey : key = l.key
  · subst hkey
    exact isSome_part?_of_hasLayer (hasLayer_placeLayer t l place)
  · rw [part?_placeLayer_of_ne place (Or.inr hkey)]
    exact h

end Template

end Placard

import Placard.Proofs.Template.Keys

/-!
# The order in which layers are drawn

Layers are drawn by their places: a smaller place before a larger one, and any
place before none. Nothing is lost and nothing is drawn twice, and where the
places do not decide, the order of declaration does. All of it comes from one
fact about the comparison that the layers are sorted by: it is that of a place
which may be missing, with what is missing behind all the rest, and so it is
total and transitive.
-/

namespace Placard

/-! ## One before the other -/

/-- The first of two stands somewhere before the second. -/
def Precedes {α : Type} (as : List α) (a b : α) : Prop :=
  [a, b].Sublist as

section Lists

variable {α : Type} {a b : α} {as : List α}

theorem precedes_or (ha : a ∈ as) (hb : b ∈ as) (hne : a ≠ b) :
    Precedes as a b ∨ Precedes as b a := by
  induction as with
  | nil => cases ha
  | cons c as ih =>
      rcases List.mem_cons.mp ha with rfl | ha'
      · have hb' := (List.mem_cons.mp hb).resolve_left hne.symm
        exact Or.inl (List.Sublist.cons_cons a (List.singleton_sublist.mpr hb'))
      · rcases List.mem_cons.mp hb with rfl | hb'
        · exact Or.inr (List.Sublist.cons_cons b
            (List.singleton_sublist.mpr ha'))
        · exact (ih ha' hb').imp (List.Sublist.cons c) (List.Sublist.cons c)

/-- Of two that are sorted apart, the lesser stands before the greater. -/
theorem precedes_of_pairwise {le : α → α → Prop} (hsorted : as.Pairwise le)
    (ha : a ∈ as) (hb : b ∈ as) (hne : a ≠ b) (hnot : ¬ le b a) :
    Precedes as a b := by
  refine (precedes_or ha hb hne).resolve_right fun h => hnot ?_
  exact List.pairwise_pair.mp (hsorted.sublist h)

end Lists

/-! ## Places -/

namespace Template

variable {t : Template} {a b c : Layer}

theorem drawnBefore_trans (h : drawnBefore a b = true)
    (h' : drawnBefore b c = true) : drawnBefore a c = true := by
  unfold drawnBefore at *
  generalize a.order = l, b.order = m, c.order = n at *
  cases l <;> cases m <;> cases n <;>
    simp only [Bool.false_eq_true, decide_eq_true_eq] at h h' ⊢
  exact Int32.le_trans h h'

theorem drawnBefore_total (a b : Layer) :
    (drawnBefore a b || drawnBefore b a) = true := by
  unfold drawnBefore
  cases a.order <;> cases b.order <;> simp only [Bool.or_true, Bool.true_or]
  simp only [Bool.or_eq_true, decide_eq_true_eq]
  exact Int32.le_total _ _

theorem drawnBefore_of_order_eq (h : a.order = b.order) :
    drawnBefore a b = true := by
  unfold drawnBefore
  rw [h]
  cases b.order with
  | none => rfl
  | some n => exact decide_eq_true (Int32.le_refl n)

/-- A smaller place is not taken for a larger one, nor none for any. -/
theorem not_drawnBefore_of_lt {m n : Int32} (ha : a.order = some m)
    (hb : b.order = some n) (h : m < n) : ¬ drawnBefore b a = true := by
  simp only [drawnBefore, ha, hb, decide_eq_true_eq, Int32.not_le]
  exact h

theorem not_drawnBefore_of_none {m : Int32} (ha : a.order = some m)
    (hb : b.order = none) : ¬ drawnBefore b a = true := by
  simp only [drawnBefore, ha, hb, Bool.false_eq_true, not_false_eq_true]

theorem drawOrder_perm (t : Template) : t.drawOrder.Perm t.layers :=
  List.mergeSort_perm _ _

theorem mem_drawOrder {l : Layer} : l ∈ t.drawOrder ↔ l ∈ t.layers :=
  t.drawOrder_perm.mem_iff

theorem drawOrder_pairwise (t : Template) :
    t.drawOrder.Pairwise fun a b => drawnBefore a b = true :=
  @List.pairwise_mergeSort _ drawnBefore (fun _ _ _ => drawnBefore_trans)
    drawnBefore_total t.layers

end Template

/-! ## Drawing -/

/-- The layers in the order in which they are drawn. -/
structure Drawn (declared drawn : List Layer) : Prop where
  perm : drawn.Perm declared
  /-- A smaller place comes before a larger one. -/
  placed : ∀ a ∈ declared, ∀ b ∈ declared, ∀ m n, a.order = some m →
    b.order = some n →
    m < n → Precedes drawn a b
  /-- Layers without a place come last. -/
  unplaced : ∀ a ∈ declared, ∀ b ∈ declared, ∀ m, a.order = some m →
    b.order = none →
    Precedes drawn a b
  /-- Layers of one place, and those without, keep the order of declaration. -/
  tied : ∀ a b, a.order = b.order → Precedes declared a b → Precedes drawn a b

namespace Template

theorem drawn_drawOrder (t : Template) : Drawn t.layers t.drawOrder where
  perm := t.drawOrder_perm
  placed _ ha _ hb _ _ hm hn hlt :=
    precedes_of_pairwise t.drawOrder_pairwise (mem_drawOrder.mpr ha)
      (mem_drawOrder.mpr hb)
      (fun h => Int32.lt_irrefl
        (Option.some.inj (hm.symm.trans (h ▸ hn)) ▸ hlt))
      (not_drawnBefore_of_lt hm hn hlt)
  unplaced _ ha _ hb m hm hn :=
    precedes_of_pairwise t.drawOrder_pairwise (mem_drawOrder.mpr ha)
      (mem_drawOrder.mpr hb)
      (fun h => Option.some_ne_none m (hm.symm.trans (h ▸ hn)))
      (not_drawnBefore_of_none hm hn)
  tied _ _ heq h :=
    List.pair_sublist_mergeSort (fun _ _ _ => drawnBefore_trans)
      drawnBefore_total (drawnBefore_of_order_eq heq) h

theorem nodup_keys_drawOrder {t : Template} (hd : t.DistinctKeys) :
    (t.drawOrder.map Layer.key).Nodup :=
  (t.drawOrder_perm.map Layer.key).nodup_iff.mpr hd

end Template

end Placard

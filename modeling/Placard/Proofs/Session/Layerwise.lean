import Placard.Proofs.Family.Layerwise
import Placard.Proofs.Session.Runs

/-!
# What holds of every layer in a session

A request changes the templates of a session by one operation on its workspace,
or not at all. So what holds of every layer of a library for as long as
operations bring in nothing else holds in a session of what requests bring in.
-/

namespace Placard.Session

variable {P : Layer → Prop} {Q : Property → Value → Prop} {s s' : Session}
  {req : Request}

/-- What the request brings in has the properties. -/
def Request.Brings (P : Layer → Prop) (Q : Property → Value → Prop) :
    Request → Prop
  | setProperty layer p v => layer ≠ canvasKey → Q p v
  | addLayer l => P l
  | setActive _ | createChild _ _ _ | removeChild _ | resetProperty _ _
  | deleteLayer _ | resetLayer _ | setField _ _ | bindField _ _ | unbindField _
  | setToggles _ | poll _ _ | clock _ => True

instance [DecidablePred P] [∀ p v, Decidable (Q p v)] :
    (req : Request) → Decidable (req.Brings P Q)
  | .setProperty layer p v =>
    inferInstanceAs (Decidable (layer ≠ canvasKey → Q p v))
  | .addLayer l => inferInstanceAs (Decidable (P l))
  | .setActive _ | .createChild _ _ _ | .removeChild _ | .resetProperty _ _
  | .deleteLayer _ | .resetLayer _ | .setField _ _ | .bindField _ _
  | .unbindField _ | .setToggles _ | .poll _ _ | .clock _ => .isTrue trivial

theorem Answers.library_all (hP : Layerwise P Q) (h : s.Answers req s')
    (hs : s.WellFormed) (hreq : req.Brings P Q)
    (hall : s.workspace.library.All P) : s'.workspace.library.All P := by
  have hlinked := hs.workspace.linked
  cases h with
  | setActive h => exact h.workspace ▸ hall
  | createChild _ _ heffect | removeActive _ _ heffect
  | removeOther _ _ _ heffect =>
      exact heffect.library_all hP hlinked trivial hall
  | setProperty h | addLayer h =>
      exact h.effect.library_all hP hlinked hreq hall
  | resetProperty h | deleteLayer h | resetLayer h =>
      exact h.effect.library_all hP hlinked trivial hall
  | setField h =>
      rcases h.effect with hsame | ⟨id, p, c, toggles, heffect⟩
      · exact hsame ▸ hall
      · -- The colour is written to the canvas, and to no layer.
        exact heffect.library_all hP hlinked (fun hne => absurd rfl hne) hall
  | bindField _ hsame | unbindField _ hsame => exact hsame ▸ hall
  | setToggles | poll | clock => exact hall

theorem WellFormed.run_all {reqs : List Request} (hP : Layerwise P Q)
    (hs : s.WellFormed) (hreqs : Each (fun _ _ req => req.Brings P Q) s reqs)
    (hall : s.workspace.library.All P) : (s.run reqs).workspace.library.All P :=
  hreqs.run_induct (P := fun s => s.workspace.library.All P)
    (fun hs hdone hreq hall => (answers_of_perform hs hdone).library_all hP hs
      hreq hall) hs hall

end Placard.Session

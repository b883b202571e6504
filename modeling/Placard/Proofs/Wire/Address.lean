import Mathlib.Data.List.DropRight
import Mathlib.Data.List.TakeWhile
import Placard.Proofs.Wire.Encoders
import Placard.Render

/-!
# The asset that is named and the asset that is fetched

A rendering names its asset twice: the first command puts it into a variable, as
a token, and the address has it as the path of the picture. The token is that of
the asset as it is given, and reading it back gives that again, with every slash
that is in it. From the path the slashes at both ends are taken off. So the two
are of one asset exactly if it has none there; whatever slashes stand inside,
single or doubled, are the same in both.
-/

namespace Placard

open Text

/-! ## Slashes at the ends -/

/-- No slash is at either end. -/
def Bare (s : List Char) : Prop :=
  s.head? ≠ some '/' ∧ s.getLast? ≠ some '/'

theorem dropWhile_slash_eq_self_iff {s : List Char} :
    s.dropWhile (· == '/') = s ↔ s.head? ≠ some '/' := by
  cases s with
  | nil => exact ⟨nofun, fun _ => rfl⟩
  | cons c s =>
      rw [List.dropWhile_eq_self_iff]
      simp

theorem dropTrailingSlashes_eq_self_iff {s : List Char} :
    dropTrailingSlashes s = s ↔ s.getLast? ≠ some '/' := by
  rw [dropTrailingSlashes, List.reverse_eq_iff, dropWhile_slash_eq_self_iff,
    List.head?_reverse]

/-- Only a text without slashes at its ends is as it was when they are taken
off. -/
theorem stripSlashes_eq_self_iff {s : List Char} :
    stripSlashes s = s ↔ Bare s := by
  constructor
  · intro h
    have htrailing : (dropTrailingSlashes (s.dropWhile (· == '/'))).length ≤
        (s.dropWhile (· == '/')).length := by
      rw [dropTrailingSlashes, List.length_reverse]
      exact (List.dropWhile_sublist _).length_le.trans_eq List.length_reverse
    rw [← stripSlashes, h] at htrailing
    have hleading : s.dropWhile (· == '/') = s :=
      (List.dropWhile_sublist _).eq_of_length_le htrailing
    rw [stripSlashes, hleading] at h
    exact ⟨dropWhile_slash_eq_self_iff.mp hleading,
      dropTrailingSlashes_eq_self_iff.mp h⟩
  · rintro ⟨hhead, hlast⟩
    rw [stripSlashes, dropWhile_slash_eq_self_iff.mpr hhead,
      dropTrailingSlashes_eq_self_iff.mpr hlast]

/-! ## What a manifest says of its asset -/

namespace Manifest

/-- The first command puts the token of the asset into the variable of the
subject. -/
def Names (m : Manifest) (asset : String) : Prop :=
  ∃ token,
    m.segments.head?.map Segment.tokens =
      some (subjectVariable ++ "_!" ++ token ++ "!") ∧
    Token.path token = asset

/-- The address has the path of the asset between the commands and the
extension. -/
def Fetches (m : Manifest) (r : RendererSettings) (path : String) : Prop :=
  m.url = String.ofList (dropTrailingSlashes r.baseUrl.toList) ++ "/" ++
    m.transformation ++ "/" ++ path ++ "." ++ r.extension

end Manifest

namespace Library

variable {lib : Library} {settings : Settings} {r : RenderRequest}
  {m : Manifest}

theorem names_iff (h : lib.render settings r = .ok m) (asset : String) :
    m.Names asset ↔ asset = r.assetId := by
  obtain ⟨t, fields, -, -, -, -, rfl⟩ := render_eq_ok_iff.mp h
  constructor
  · rintro ⟨token, hfirst, rfl⟩
    have htoken : Token.asset r.assetId = token :=
      (String.append_right_inj _).mp
        ((String.append_left_inj _).mp (Option.some.inj hfirst))
    rw [← htoken, Token.path_asset]
  · rintro rfl
    exact ⟨Token.asset r.assetId, rfl, Token.path_asset r.assetId⟩

theorem fetches_iff (h : lib.render settings r = .ok m) (path : String) :
    m.Fetches settings.renderer path ↔
      path = String.ofList (stripSlashes r.assetId.toList) := by
  have hurl : m.url = settings.renderer.urlFor m.transformation r.assetId := by
    obtain ⟨t, fields, -, -, -, -, rfl⟩ := render_eq_ok_iff.mp h
    rfl
  rw [Manifest.Fetches, hurl, RendererSettings.urlFor, String.append_left_inj,
    String.append_left_inj, String.append_right_inj, eq_comm]

/-- A rendering names one asset, the one that is asked for, and fetches one,
that one without the slashes at its ends. They are the same exactly if it has
none there. -/
theorem names_eq_fetches_iff (h : lib.render settings r = .ok m) :
    (∀ asset, m.Names asset ↔ asset = r.assetId) ∧
      (∀ path, m.Fetches settings.renderer path ↔
        path = String.ofList (stripSlashes r.assetId.toList)) ∧
      ∀ asset path, m.Names asset → m.Fetches settings.renderer path →
        (asset = path ↔ Bare r.assetId.toList) := by
  refine ⟨names_iff h, fetches_iff h, fun asset path hnames hfetches => ?_⟩
  rw [(names_iff h asset).mp hnames, (fetches_iff h path).mp hfetches,
    ← stripSlashes_eq_self_iff, eq_comm, ← String.toList_inj,
    String.toList_ofList]

/-! ## A backdrop -/

/-- A library of one template, which shows the asset alone. -/
def backdrop : Library :=
  put ∅ "wide" (.ofCanvas "wide" 500 500)

theorem exists_render_backdrop (asset : String)
    (hasset : allBlank asset = false) :
    ∃ m, backdrop.render .default ⟨"wide", asset, none, some ∅⟩ = .ok m :=
  have ht : backdrop.get? "wide" = some (.ofCanvas "wide" 500 500) := by
    decide +kernel
  ⟨_, render_eq_ok_iff.mpr ⟨_, ∅, ht, by decide +kernel, hasset, rfl, rfl⟩⟩

/-- Slashes inside, also two of them, are in the variable and in the address. -/
theorem backdrop_names_eq_fetches :
    ∃ m, backdrop.render .default ⟨"wide", "shop//shoe", none, some ∅⟩ = .ok m ∧
      m.Names "shop//shoe" ∧ m.Fetches .default "shop//shoe" ∧
      Bare "shop//shoe".toList := by
  obtain ⟨m, h⟩ := exists_render_backdrop "shop//shoe" (by decide +kernel)
  obtain ⟨hnames, hfetches, hsame⟩ := names_eq_fetches_iff h
  have hn := (hnames "shop//shoe").mpr rfl
  have hf := (hfetches "shop//shoe").mpr (by decide +kernel)
  exact ⟨m, h, hn, hf, (hsame _ _ hn hf).mp rfl⟩

/-- A slash in front is in the variable and not in the address. -/
theorem backdrop_names_ne_fetches :
    ¬ ∀ (lib : Library) (settings : Settings) (r : RenderRequest)
      (m : Manifest),
      lib.render settings r = .ok m → ∀ asset path, m.Names asset →
        m.Fetches settings.renderer path → asset = path := by
  intro hsame
  obtain ⟨m, h⟩ := exists_render_backdrop "/bag" (by decide +kernel)
  have heq : "/bag" = "bag" :=
    hsame _ _ _ m h _ _ ((names_iff h "/bag").mpr rfl)
      ((fetches_iff h "bag").mpr (by decide +kernel))
  exact absurd heq (by decide)

end Library

end Placard

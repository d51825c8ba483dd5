/-
  Homestead.Proofs.World.Reached
  ──────────────────────────────
  **WORLDS THAT A PROGRAM CAN COME TO.**

  A world begins as the world of a blueprint.  Then things are done to its
  items and to its houses, time passes, and rows are loaded, in any order
  and whatever the rows are.  Every world that is reached is sound, keeps
  the catalog that it began with, and has its houses under their numbers.

  Main results:
    * `Reached` — the worlds that can be reached;
    * `Reached.sound`, `Reached.numbered` — what they are like.
-/
import Homestead.Proofs.House.Edits
import Homestead.Proofs.World.Changes

namespace Homestead

namespace World

/-! ## §1. Loading. -/

variable {w w' : World}

/-- Loading houses is a run of edits. -/
theorem edits_of_loadHouses {a : Archive} {ρ : Type} [Resolver ρ] {names names' : ρ}
    {loaded : Loaded HouseReport} (h : w.loadHouses a names = .ok (loaded, names')) :
    ∃ edits, (w.editHouses names edits).1 = loaded.world := by
  obtain ⟨rows, lists, _, _, _, hEdits⟩ := loadHouses_eq_ok h
  exact ⟨_, congrArg Prod.fst hEdits⟩

/-! ## §2. Worlds that can be reached. -/

/-- The worlds that a blueprint leads to. -/
inductive Reached (c : Catalog) (b : Blueprint) : World → Prop where
  /-- The world of the blueprint. -/
  | drawn {w : World} (h : (ofBlueprint c b).1 = .ok w) : Reached c b w
  /-- Something is done to an item. -/
  | acted {w : World} (hw : Reached c b w) (a : Graph.Action) :
    Reached c b { w with graph := w.graph.perform w.catalog a }
  /-- Something is done to a house. -/
  | edited {w : World} (hw : Reached c b w) {ρ : Type} [Resolver ρ] (names : ρ) (e : HouseEdit) :
    Reached c b (editHouse (w, names) e).1
  /-- Time passes. -/
  | aged {w : World} (hw : Reached c b w) (elapsed : Int) : Reached c b (w.processDecay elapsed).1
  /-- House tiles are loaded. -/
  | items {w : World} (hw : Reached c b w) {a : Archive} {loaded : Loaded LoadReport}
    (h : w.loadItems a = .ok loaded) : Reached c b loaded.world
  /-- Houses are loaded. -/
  | houses {w : World} (hw : Reached c b w) {a : Archive} {ρ : Type} [Resolver ρ] {names names' : ρ}
    {loaded : Loaded HouseReport} (h : w.loadHouses a names = .ok (loaded, names')) :
    Reached c b loaded.world

variable {c : Catalog} {b : Blueprint}

/-- **A world that is reached is sound.** -/
theorem Reached.sound (h : Reached c b w) : w.Sound := by
  induction h with
  | drawn h => exact (drawn_ofBlueprint h).sound
  | acted _ a ih => exact ih.perform a
  | edited _ names e ih => exact (keeps_editHouse _ names e).sound ih
  | aged _ elapsed ih => exact (changes_processDecay (A := anyBinding) _ elapsed).sound ih
  | items _ h ih => exact (changes_loadItems ih h).sound ih
  | houses _ h ih =>
    obtain ⟨edits, hEdits⟩ := edits_of_loadHouses h
    exact hEdits ▸ (keeps_editHouses edits _ _).sound ih

/-- **The catalog is the one of the blueprint.** -/
theorem Reached.catalog (h : Reached c b w) : w.catalog = c := by
  induction h with
  | drawn h => exact (drawn_ofBlueprint h).catalog
  | acted _ a ih => exact ih
  | edited _ names e ih => exact (keeps_editHouse _ names e).catalog.trans ih
  | aged _ elapsed ih => exact (changes_processDecay (A := anyBinding) _ elapsed).catalog.trans ih
  | items hw h ih => exact (changes_loadItems hw.sound h).catalog.trans ih
  | houses _ h ih =>
    obtain ⟨edits, hEdits⟩ := edits_of_loadHouses h
    exact hEdits ▸ (keeps_editHouses edits _ _).catalog.trans ih

/-- Whether houses stand under their own numbers is told by the register. -/
theorem Numbered.of_houses (hw : w.Numbered) (h : w'.houses = w.houses) : w'.Numbered := by
  intro id house hHouse
  unfold house? at hHouse
  rw [h] at hHouse
  exact hw id house hHouse

/-- **Every house stands under its own number.** -/
theorem Reached.numbered (h : Reached c b w) : w.Numbered := by
  induction h with
  | drawn h => exact fun id house hHouse => ((drawn_ofBlueprint h).houses id house hHouse).1
  | acted _ a ih => exact ih
  | edited _ names e ih => exact ih.of_sameFittings (sameFittings_editHouse _ names e)
  | aged _ elapsed ih => exact ih.of_houses (changes_processDecay (A := anyBinding) _ elapsed).houses
  | items hw h ih => exact ih.of_houses (changes_loadItems hw.sound h).houses
  | houses _ h ih =>
    obtain ⟨edits, hEdits⟩ := edits_of_loadHouses h
    exact hEdits ▸ ih.of_sameFittings (sameFittings_editHouses edits _ _)

end World

end Homestead

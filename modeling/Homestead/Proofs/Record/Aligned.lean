/-
  Homestead.Proofs.Record.Aligned
  ───────────────────────────────
  **NO CATALOG BRINGS READING OUT OF STEP.**

  A catalog that changes after items were stored changes what becomes of
  them, and which updates are left out, but not where a record ends.  What
  no catalog has a say in is the outline of a record.  The catalog without
  types refuses nothing that any other one reads, so any two catalogs that
  read the same octets give the outline that it gives.

  Main results:
    * `IsRecord.thinned` — a record stays one when the catalog gets thinner;
    * `decode_in_step` — two catalogs on the same octets.
-/
import Homestead.Proofs.Record.Grammar

open Homestead.Stream

namespace Homestead

/-! ## §1. Catalogs that get thinner. -/

/-- The second catalog is the first one with types removed or deprecated, or changed in anything
but their number and group. -/
def Catalog.Thins (c c' : Catalog) : Prop :=
  ∀ id t', c'.get? id = some t' →
    ∃ t, c.get? id = some t ∧ (t'.group = t.group ∨ t'.isDeprecated = true)

/-- The empty catalog is the thinnest. -/
theorem Catalog.thins_empty (c : Catalog) : c.Thins Catalog.empty := by
  intro id t' h
  have hNone : Catalog.empty.get? id = none := Std.TreeMap.getElem?_emptyc
  rw [hNone] at h
  cases h

/-- What may have contents by a catalog may have them by a thinner one. -/
theorem Catalog.Thins.all_isContainer {c c' : Catalog} (h : c.Thins c') {id : TypeId}
    (hHolds : (c.usable? id).all (·.isContainer) = true) :
    (c'.usable? id).all (·.isContainer) = true := by
  cases hUsable' : c'.usable? id with
  | none => rfl
  | some t' =>
    obtain ⟨hGet', hKept'⟩ := Option.filter_eq_some_iff.1 hUsable'
    -- A thinner catalog has the type in the same group, or has put it out of use.
    obtain ⟨t, hGet, hGroup | hOut⟩ := h id t' hGet'
    · have hKept : (!t.isDeprecated) = true := by
        unfold ItemType.isDeprecated at hKept' ⊢
        rwa [← hGroup]
      have hUsable : c.usable? id = some t := Option.filter_eq_some_iff.2 ⟨hGet, hKept⟩
      rw [hUsable] at hHolds
      show t'.isContainer = true
      unfold ItemType.isContainer
      rw [hGroup]
      exact hHolds
    · rw [hOut] at hKept'
      cases hKept'

namespace Record

/-! ## §2. Outlines. -/

/-- Whether the update is made on items of one variant only. -/
def Update.isVariant : Update → Bool
  | .depotId _ | .number .doorId _ | .sleeper _ | .sleepStart _ | .destination _ => true
  | _ => false

/-- The updates that are made on items of any variant. -/
def general (us : List Update) : List Update :=
  us.filter (!·.isVariant)

/-- What octets say of items before any catalog is asked. -/
inductive Outline where
  /-- The type, the updates of any variant, and the outlines of the contents. -/
  | mk (typeId : TypeId) (updates : List Update) (children : Option (List Outline))

mutual

/-- The outline of a record. -/
def outline : Record → Outline
  | mk typeId _ updates none => .mk typeId (general updates) none
  | mk typeId _ updates (some children) =>
    .mk typeId (general updates) (some (outlines children))

/-- The outlines of records, in order. -/
def outlines : List Record → List Outline
  | [] => []
  | r :: rs => r.outline :: outlines rs

end

theorem length_outlines (rs : List Record) : (outlines rs).length = rs.length := by
  induction rs with
  | nil => rfl
  | cons r rs ih => rw [outlines, List.length_cons, List.length_cons, ih]

/-! ## §3. Attributes of another type. -/

/-- What an attribute does to a variant is not general. -/
theorem general_onGroup {type : Option ItemType} {group : Group} {u : Update}
    (h : u.isVariant = true) : general (onGroup type group u).toList = [] := by
  unfold onGroup
  split_ifs
  · simp [general, h]
  · rfl

/-- An attribute of one type is one of any other type, with the same update unless it is made on
items of one variant only. -/
theorem Attribute.any {type : Option ItemType} {used : List UInt8} {u : Option Update}
    (h : Attribute type used u) (type' : Option ItemType) :
    ∃ u', Attribute type' used u' ∧ general u'.toList = general u.toList := by
  -- The last five attributes are made on one kind of variant only, and are not general.
  cases h with
  | octet hRow n => exact ⟨_, .octet hRow n, rfl⟩
  | short hRow n => exact ⟨_, .short hRow n, rfl⟩
  | long hRow n => exact ⟨_, .long hRow n, rfl⟩
  | signed hRow n => exact ⟨_, .signed hRow n, rfl⟩
  | text hRow octets hLength => exact ⟨_, .text hRow octets hLength, rfl⟩
  | shortSubType hCode n => exact ⟨_, .shortSubType hCode n, rfl⟩
  | subType n => exact ⟨_, .subType n, rfl⟩
  | duration n => exact ⟨_, .duration n, rfl⟩
  | idle => exact ⟨_, .idle, rfl⟩
  | pending hNonzero => exact ⟨_, .pending hNonzero, rfl⟩
  | depotId n => exact ⟨_, .depotId n, (general_onGroup rfl).trans (general_onGroup rfl).symm⟩
  | doorId n => exact ⟨_, .doorId n, (general_onGroup rfl).trans (general_onGroup rfl).symm⟩
  | sleeper id => exact ⟨_, .sleeper id, (general_onGroup rfl).trans (general_onGroup rfl).symm⟩
  | sleepStart time =>
    exact ⟨_, .sleepStart time, (general_onGroup rfl).trans (general_onGroup rfl).symm⟩
  | destination x y z =>
    exact ⟨_, .destination x y z, (general_onGroup rfl).trans (general_onGroup rfl).symm⟩

/-- The general attributes of two lists are those of the one and of the other. -/
theorem general_append (us vs : List Update) : general (us ++ vs) = general us ++ general vs :=
  List.filter_append us vs

/-- **Attributes of one type are attributes of any other type**, with the same updates but for
those that are made on items of one variant only. -/
theorem Attributes.any {type : Option ItemType} {used : List UInt8} {us : List Update}
    (h : Attributes type used us) (type' : Option ItemType) :
    ∃ us', Attributes type' used us' ∧ general us' = general us := by
  induction h with
  | nil => exact ⟨[], .nil, rfl⟩
  | cons hFirst _ ih =>
    obtain ⟨u', hFirst', hSame⟩ := hFirst.any type'
    obtain ⟨us', hRest', hSame'⟩ := ih
    refine ⟨u'.toList ++ us', .cons hFirst' hRest', ?_⟩
    rw [general_append, general_append, hSame, hSame']

/-! ## §4. Records of a thinner catalog. -/

mutual

/-- **A record stays one when the catalog gets thinner**, with the same outline. -/
theorem IsRecord.thinned {c c' : Catalog} (hThins : c.Thins c') {depth : Nat}
    {used : List UInt8} {rec : Record} :
    IsRecord c depth used rec → ∃ rec', IsRecord c' depth used rec' ∧ rec'.outline = rec.outline
  | .ended id hAttributes => by
    obtain ⟨us', hAttributes', hSame⟩ := hAttributes.any (c'.usable? id)
    refine ⟨_, .ended id hAttributes', ?_⟩
    rw [outline, outline, hSame]
  | .holding id hAttributes hType hDepth hCount hChildren => by
    obtain ⟨us', hAttributes', hSame⟩ := hAttributes.any (c'.usable? id)
    obtain ⟨children', hChildren', hSame'⟩ := hChildren.thinned hThins
    -- The count that is written is the number of the children, which stays.
    have hLength := congrArg List.length hSame'
    rw [length_outlines, length_outlines] at hLength
    have hHolds := IsRecord.holding id hAttributes' (hThins.all_isContainer hType) hDepth
      (hLength ▸ hCount) hChildren'
    rw [hLength] at hHolds
    refine ⟨_, hHolds, ?_⟩
    rw [outline, outline, hSame, hSame']

/-- Octets of records are octets of as many with the same outlines under a thinner catalog. -/
theorem AreRecords.thinned {c c' : Catalog} (hThins : c.Thins c') {depth : Nat}
    {used : List UInt8} {rs : List Record} : AreRecords c depth used rs →
      ∃ rs', AreRecords c' depth used rs' ∧ outlines rs' = outlines rs
  | .nil => ⟨[], .nil, rfl⟩
  | .cons hFirst hRest => by
    obtain ⟨r', hFirst', hSame⟩ := hFirst.thinned hThins
    obtain ⟨rs', hRest', hSame'⟩ := hRest.thinned hThins
    refine ⟨r' :: rs', .cons hFirst' hRest', ?_⟩
    rw [outlines, outlines, hSame, hSame']

end

/-- What a catalog reads is read with a thinner one, up to the same octet and with the same
outline. -/
theorem decode_thinned {c c' : Catalog} (hThins : c.Thins c') {r r' : Reader} {rec : Record}
    (h : decode c r = .ok (rec, r')) :
    ∃ rec', decode c' r = .ok (rec', r') ∧ rec'.outline = rec.outline := by
  obtain ⟨used, hPasses, hRecord⟩ := (reads_decodeWithin c maxDepth rfl r rec r').1 h
  obtain ⟨rec', hRecord', hSame⟩ := hRecord.thinned hThins
  exact ⟨rec', (reads_decodeWithin c' maxDepth rfl r rec' r').2 ⟨used, hPasses, hRecord'⟩, hSame⟩

/-- **No catalog brings reading out of step.**  Two catalogs that both read the same octets stop at
the same octet and give the same outline, and what a catalog reads is read with every thinner one,
up to the same octet. -/
theorem decode_in_step {c : Catalog} {r r' : Reader} {rec : Record}
    (h : decode c r = .ok (rec, r')) (c' : Catalog) :
    (∀ rec' r'', decode c' r = .ok (rec', r'') → r'' = r' ∧ rec'.outline = rec.outline)
      ∧ (c.Thins c' → ∃ rec', decode c' r = .ok (rec', r')) := by
  constructor
  · intro rec' r'' h'
    -- Both are what the catalog without types reads.
    obtain ⟨plain, hPlain, hSame⟩ := decode_thinned c.thins_empty h
    obtain ⟨plain', hPlain', hSame'⟩ := decode_thinned c'.thins_empty h'
    obtain ⟨rfl, rfl⟩ := Prod.mk.inj (Except.ok.inj (hPlain.symm.trans hPlain'))
    exact ⟨rfl, hSame'.symm.trans hSame⟩
  · intro hThins
    obtain ⟨rec', hDecode, _⟩ := decode_thinned hThins h
    exact ⟨rec', hDecode⟩

/-- A catalog in which bags are no longer used. -/
def retiredCatalog : Catalog where
  types := Catalog.empty.types.insert 1 { id := 1, group := .deprecated, moveable := true }
  keyed := Catalog.empty.keyed_insert { id := 1, group := .deprecated, moveable := true }

/-- A bag with an item of a type that no catalog has, said to be a door, and an octet behind. -/
def baggedDoor : List UInt8 :=
  [1, 0, 23, 1, 0, 0, 0, 2, 0, 14, 4, 0, 0, 7]

/-- Retiring types thins a catalog. -/
theorem bagCatalog_thins_retiredCatalog : bagCatalog.Thins retiredCatalog := by
  intro id t' h
  have hGet : retiredCatalog.get? id
      = if compare 1 id = .eq then some { id := 1, group := .deprecated, moveable := true }
        else none :=
    Std.TreeMap.getElem?_insert
  rw [hGet] at h
  -- The retired catalog has this type only, and it is a container no longer.
  split_ifs at h with hBag
  obtain rfl : 1 = id := Std.LawfulEqOrd.eq_of_compare hBag
  obtain rfl := Option.some_inj.1 h
  exact ⟨_, rfl, .inr rfl⟩

/-- The bag is read up to the octet behind it, also when bags are no longer used. -/
theorem decode_in_step_retired :
    ∃ rec, decode bagCatalog ⟨0, baggedDoor⟩ = .ok (rec, ⟨13, [7]⟩)
      ∧ bagCatalog.Thins retiredCatalog
      ∧ (∀ rec' r'', decode retiredCatalog ⟨0, baggedDoor⟩ = .ok (rec', r'') →
        r'' = ⟨13, [7]⟩ ∧ rec'.outline = rec.outline)
      ∧ ∃ rec', decode retiredCatalog ⟨0, baggedDoor⟩ = .ok (rec', ⟨13, [7]⟩) := by
  have hRecord : IsRecord bagCatalog 0 [1, 0, 23, 1, 0, 0, 0, 2, 0, 14, 4, 0, 0] _ :=
    .holding 1 .nil (by decide) (by decide) (by decide)
      (.cons (.ended 2 (.cons (.doorId 4) .nil)) .nil)
  have hDecode := (reads_decodeWithin bagCatalog maxDepth rfl ⟨0, baggedDoor⟩ _ ⟨13, [7]⟩).2
    ⟨_, ⟨rfl, rfl⟩, hRecord⟩
  obtain ⟨hSame, hThinner⟩ := decode_in_step hDecode retiredCatalog
  exact ⟨_, hDecode, bagCatalog_thins_retiredCatalog, hSame,
    hThinner bagCatalog_thins_retiredCatalog⟩

end Record

end Homestead

/-
  Homestead.Proofs.Record.Grammar
  ───────────────────────────────
  **THE FORMAT OF RECORDS.**

  A record is the number of a type, any attributes, and then either octet 0
  or octet 23, a count, as many records and octet 0.  An attribute is an
  octet that names it and the values that go with the name.  Contents stand
  only where the type holds items or cannot be used, and at most 24 levels
  deep.

  This is the format as a grammar, which says what octets stand for and
  nothing about reading them.  Reading takes all octets of the format, goes
  right behind them, and takes no others.

  Main results:
    * `Attribute`, `Attributes` — what is said of an item;
    * `IsRecord`, `AreRecords` — records, with the depth at which they lie;
    * `reads_decodeWithin` — records are read on every level;
    * `decode_iff_isRecord` — the octets that are read, and as what.
-/
import Homestead.Proofs.Record.Reads

open Homestead.Stream

namespace Homestead

namespace Record

/-! ## §1. The grammar of attributes. -/

/-- The attributes that are a number or a text of the item itself: the octet that names them, the
layout of their value, and where it is kept. -/
def plainAttributes : List (UInt8 × Format × Kind) :=
  [(4, .u16, .actionId), (6, .block, .text), (7, .block, .description), (18, .u32, .writtenDate),
    (19, .block, .writer), (24, .block, .name), (25, .block, .article), (26, .block, .pluralName),
    (27, .u32, .weight), (28, .i32, .attack), (29, .i32, .defense), (31, .i32, .armor),
    (33, .u8, .shootRange), (34, .u16, .keyNumber), (35, .u16, .keyholeNumber),
    (36, .u16, .doorLevel), (37, .u16, .doorQuestNumber), (38, .u16, .doorQuestValue),
    (39, .u16, .chestQuestNumber), (40, .u8, .missileEffect), (41, .u16, .movementId),
    (42, .u16, .lifeLeech), (43, .u16, .manaLeech), (44, .u16, .critical), (45, .u16, .reflection)]

/-- An update that is made to items of one group of types only. -/
def onGroup (type : Option ItemType) (group : Group) (u : Update) : Option Update :=
  if type.any (·.group == group) then some u else none

/-- The octets of an attribute, and the update that it makes to an item of the type, if any. -/
inductive Attribute (type : Option ItemType) : List UInt8 → Option Update → Prop where
  /-- A number of one octet. -/
  | octet {code : UInt8} {kind : Kind} (h : (code, .u8, kind) ∈ plainAttributes) (n : UInt8) :
    Attribute type [code, n] (some (.number kind n.toNat))
  /-- A number of two octets. -/
  | short {code : UInt8} {kind : Kind} (h : (code, .u16, kind) ∈ plainAttributes) (n : UInt16) :
    Attribute type (code :: littleEndian 2 n.toNat) (some (.number kind n.toNat))
  /-- A number of four octets. -/
  | long {code : UInt8} {kind : Kind} (h : (code, .u32, kind) ∈ plainAttributes) (n : UInt32) :
    Attribute type (code :: littleEndian 4 n.toNat) (some (.number kind n.toNat))
  /-- A signed number of four octets. -/
  | signed {code : UInt8} {kind : Kind} (h : (code, .i32, kind) ∈ plainAttributes) (n : Int32) :
    Attribute type (code :: littleEndian 4 n.toUInt32.toNat) (some (.number kind n.toInt))
  /-- A text with the number of its octets in front. -/
  | text {code : UInt8} {kind : Kind} (h : (code, .block, kind) ∈ plainAttributes)
    (octets : List UInt8) (hLength : octets.length < 65536) :
    Attribute type (code :: (littleEndian 2 octets.length ++ octets))
      (some (.text kind (Text.ofOctets octets)))
  /-- A sub type of one octet. -/
  | shortSubType {code : UInt8} (h : code = 12 ∨ code = 15) (n : UInt8) :
    Attribute type [code, n] (some (.subType n.toUInt16))
  /-- A sub type of two octets. -/
  | subType (n : UInt16) : Attribute type (22 :: littleEndian 2 n.toNat) (some (.subType n))
  /-- The time until the item decays; less than none is none. -/
  | duration (n : Int32) :
    Attribute type (16 :: littleEndian 4 n.toUInt32.toNat) (some (.duration (max n.toInt 0)))
  /-- The time of the item does not run. -/
  | idle : Attribute type [17, 0] none
  /-- The time of the item is to run. -/
  | pending {n : UInt8} (h : n ≠ 0) : Attribute type [17, n] (some .decayPending)
  /-- The number of a depot. -/
  | depotId (n : UInt16) :
    Attribute type (10 :: littleEndian 2 n.toNat) (onGroup type .depot (.depotId n))
  /-- The number of a door. -/
  | doorId (n : UInt8) : Attribute type [14, n] (onGroup type .door (.number .doorId n.toNat))
  /-- Who sleeps in a bed. -/
  | sleeper (id : UInt32) :
    Attribute type (20 :: littleEndian 4 id.toNat) (onGroup type .bed (.sleeper id))
  /-- Since when the sleeper sleeps. -/
  | sleepStart (time : UInt32) :
    Attribute type (21 :: littleEndian 4 time.toNat) (onGroup type .bed (.sleepStart time))
  /-- Where a teleport leads. -/
  | destination (x y : UInt16) (z : UInt8) :
    Attribute type (8 :: (littleEndian 2 x.toNat ++ littleEndian 2 y.toNat ++ [z]))
      (onGroup type .teleport (.destination ⟨x, y, z⟩))

/-- The octets of attributes one after another, and their updates in the same order. -/
inductive Attributes (type : Option ItemType) : List UInt8 → List Update → Prop where
  /-- No attributes. -/
  | nil : Attributes type [] []
  /-- A first attribute and others. -/
  | cons {front back : List UInt8} {u : Option Update} {us : List Update}
    (h : Attribute type front u) (hs : Attributes type back us) :
    Attributes type (front ++ back) (u.toList ++ us)

/-! ## §2. The grammar of records. -/

mutual

/-- The octets of a record that lies in so many others. -/
inductive IsRecord (c : Catalog) : Nat → List UInt8 → Record → Prop where
  /-- A record without a place for contents. -/
  | ended {depth : Nat} (id : TypeId) {octets : List UInt8} {us : List Update}
    (h : Attributes (c.usable? id) octets us) :
    IsRecord c depth (littleEndian 2 id.toNat ++ octets ++ [0])
      (.mk id (c.usable? id).isSome us none)
  /-- A record with its contents. -/
  | holding {depth : Nat} (id : TypeId) {octets inner : List UInt8} {us : List Update}
    {children : List Record} (h : Attributes (c.usable? id) octets us)
    (hType : (c.usable? id).all (·.isContainer) = true) (hDepth : depth < 24)
    (hCount : children.length < 4294967296) (hChildren : AreRecords c (depth + 1) inner children) :
    IsRecord c depth
      (littleEndian 2 id.toNat ++ octets ++ 23 :: (littleEndian 4 children.length ++ inner ++ [0]))
      (.mk id (c.usable? id).isSome us (some children))

/-- The octets of records one after another. -/
inductive AreRecords (c : Catalog) : Nat → List UInt8 → List Record → Prop where
  /-- No records. -/
  | nil {depth : Nat} : AreRecords c depth [] []
  /-- A first record and others. -/
  | cons {depth : Nat} {front back : List UInt8} {r : Record} {rs : List Record}
    (h : IsRecord c depth front r) (hs : AreRecords c depth back rs) :
    AreRecords c depth (front ++ back) (r :: rs)

end

/-- Records one after another are octets that split into as many records. -/
theorem areRecords_iff {c : Catalog} {depth : Nat} {used : List UInt8} {rs : List Record} :
    AreRecords c depth used rs ↔ Language.Many (IsRecord c depth) used rs := by
  -- The two definitions have the same two cases.
  induction rs generalizing used with
  | nil =>
    constructor
    · intro h
      cases h
      exact .nil
    · intro h
      cases h
      exact .nil
  | cons r rs ih =>
    constructor
    · intro h
      cases h with
      | cons hFirst hRest => exact .cons hFirst (ih.1 hRest)
    · intro h
      cases h with
      | cons hFirst hRest => exact .cons hFirst (ih.2 hRest)

/-! ## §3. Attributes are fields. -/

/-- The row of a name for a number or a text of the item itself. -/
theorem mem_plainAttributes {t : Tag} {kind : Kind} (h : t.kind? = some kind) :
    ∃ format, t.formats = [format] ∧ (t.code, format, kind) ∈ plainAttributes := by
  cases t <;> first
    | cases h
      done
    | (injection h with h; subst h; exact ⟨_, rfl, by decide⟩)

/-- Every row has a name. -/
theorem exists_tag_of_mem {code : UInt8} {format : Format} {kind : Kind}
    (h : (code, format, kind) ∈ plainAttributes) :
    ∃ t : Tag, t.code = code ∧ t.formats = [format] ∧ t.kind? = some kind := by
  have hAll : ∀ row ∈ plainAttributes,
      ∃ t ∈ Tag.all, t.code = row.1 ∧ t.formats = [row.2.1] ∧ t.kind? = some row.2.2 := by
    decide
  obtain ⟨t, _, hTag⟩ := hAll _ h
  exact ⟨t, hTag⟩

/-- A field that holds a text updates the attribute of its tag to that text. -/
theorem update?_block {host : Option Variant} {t : Tag} {kind : Kind} (octets : List UInt8)
    (h : t.kind? = some kind) :
    Field.update? host ⟨t, [.block octets]⟩ = some (.text kind (Text.ofOctets octets)) := by
  cases t <;> first
    | cases h
      done
    | (injection h with h; subst h; rfl)

/-- A field is well formed if its data have the formats of its tag and fit them. -/
theorem wellFormed_iff {f : Field} :
    f.wellFormed = true ↔ f.payload.map Datum.format = f.tag.formats
      ∧ f.payload.all Datum.fits = true := by
  rw [Field.wellFormed, Bool.and_eq_true, beq_iff_eq]

/-- A field with one datum is its tag and the octets of the datum. -/
theorem octets_singleton (t : Tag) (d : Datum) : Field.octets ⟨t, [d]⟩ = t.code :: d.octets := by
  simp [Field.octets]

/-- A field with a small number is two octets. -/
theorem octets_u8 (t : Tag) (n : UInt8) : Field.octets ⟨t, [.u8 n]⟩ = [t.code, n] := by
  simp [Field.octets, Datum.octets, littleEndian]

/-- A destination is its tag, two numbers of two octets and one of one octet. -/
theorem octets_position (x y : UInt16) (z : UInt8) :
    Field.octets ⟨.destination, [.u16 x, .u16 y, .u8 z]⟩
      = 8 :: (littleEndian 2 x.toNat ++ littleEndian 2 y.toNat ++ [z]) := by
  simp [Field.octets, Datum.octets, littleEndian, Tag.code]

/-- A field for a number or a text of the item itself is an attribute. -/
theorem attribute_of_kind? (type : Option ItemType) {t : Tag} {kind : Kind} {payload : List Datum}
    (hKind : t.kind? = some kind) (h : (⟨t, payload⟩ : Field).wellFormed = true) :
    Attribute type (Field.octets ⟨t, payload⟩)
      (Field.update? (type.map (·.variant)) ⟨t, payload⟩) := by
  obtain ⟨format, hFormats, hRow⟩ := mem_plainAttributes hKind
  obtain ⟨hPayload, hFits⟩ := wellFormed_iff.1 h
  dsimp only at hPayload hFits
  rw [hFormats] at hPayload
  obtain ⟨d, rfl, hFormat⟩ := List.map_eq_singleton_iff.1 hPayload
  subst hFormat
  cases d with
  | u8 n =>
    rw [Field.update?_number hKind rfl, octets_u8]
    exact .octet hRow n
  | u16 n =>
    rw [Field.update?_number hKind rfl, octets_singleton]
    exact .short hRow n
  | u32 n =>
    rw [Field.update?_number hKind rfl, octets_singleton]
    exact .long hRow n
  | i32 n =>
    rw [Field.update?_number hKind rfl, octets_singleton]
    exact .signed hRow n
  | block octets =>
    rw [update?_block octets hKind, octets_singleton]
    refine .text hRow octets ?_
    simpa [Datum.fits] using hFits
  | raw octets =>
    -- No attribute is laid out without its length.
    simp [plainAttributes, Datum.format] at hRow

/-- A field that means something on one variant only gives its update on the types of one group. -/
theorem onGroup_eq {p : Variant → Bool} {group : Group}
    (h : ∀ t : ItemType, p t.variant = (t.group == group)) (type : Option ItemType) (u : Update) :
    (if (type.map (·.variant)).any p then some u else none) = onGroup type group u := by
  have hAny : (type.map (·.variant)).any p = type.any (·.group == group) := by
    cases type with
    | none => rfl
    | some t => exact h t
  rw [hAny, onGroup]

/-- An item starts as a depot exactly if its type is in the group of depots. -/
theorem isDepot_variant (t : ItemType) : t.variant.isDepot = (t.group == .depot) := by
  unfold ItemType.variant
  cases t.group <;> rfl

/-- An item starts as a door exactly if its type is in the group of doors. -/
theorem isDoor_variant (t : ItemType) : t.variant.isDoor = (t.group == .door) := by
  unfold ItemType.variant
  cases t.group <;> rfl

/-- An item starts as a bed exactly if its type is in the group of beds. -/
theorem isBed_variant (t : ItemType) : t.variant.isBed = (t.group == .bed) := by
  unfold ItemType.variant
  cases t.group <;> rfl

/-- An item starts as a teleport exactly if its type is in the group of teleports. -/
theorem isTeleport_variant (t : ItemType) : t.variant.isTeleport = (t.group == .teleport) := by
  unfold ItemType.variant
  cases t.group <;> rfl

theorem eq_u8 {ds : List Datum} (h : ds.map Datum.format = [.u8]) : ∃ n, ds = [.u8 n] := by
  obtain ⟨d, rfl, hFormat⟩ := List.map_eq_singleton_iff.1 h
  cases d <;> cases hFormat
  exact ⟨_, rfl⟩

theorem eq_u16 {ds : List Datum} (h : ds.map Datum.format = [.u16]) : ∃ n, ds = [.u16 n] := by
  obtain ⟨d, rfl, hFormat⟩ := List.map_eq_singleton_iff.1 h
  cases d <;> cases hFormat
  exact ⟨_, rfl⟩

theorem eq_u32 {ds : List Datum} (h : ds.map Datum.format = [.u32]) : ∃ n, ds = [.u32 n] := by
  obtain ⟨d, rfl, hFormat⟩ := List.map_eq_singleton_iff.1 h
  cases d <;> cases hFormat
  exact ⟨_, rfl⟩

theorem eq_i32 {ds : List Datum} (h : ds.map Datum.format = [.i32]) : ∃ n, ds = [.i32 n] := by
  obtain ⟨d, rfl, hFormat⟩ := List.map_eq_singleton_iff.1 h
  cases d <;> cases hFormat
  exact ⟨_, rfl⟩

/-- Data of the formats of a place are two coordinates and a floor. -/
theorem eq_position {ds : List Datum} (h : ds.map Datum.format = [.u16, .u16, .u8]) :
    ∃ x y z, ds = [.u16 x, .u16 y, .u8 z] := by
  obtain ⟨d, _, rfl, hFormat, h⟩ := List.map_eq_cons_iff.1 h
  obtain ⟨e, _, rfl, hFormat', h⟩ := List.map_eq_cons_iff.1 h
  obtain ⟨z, rfl⟩ := eq_u8 h
  cases d <;> cases hFormat
  cases e <;> cases hFormat'
  exact ⟨_, _, _, rfl⟩

/-- An attribute may be given with other octets and another update that are equal to its own. -/
theorem Attribute.of_eq {type : Option ItemType} {octets octets' : List UInt8}
    {u u' : Option Update} (h : Attribute type octets' u') (hOctets : octets = octets')
    (hUpdate : u = u') : Attribute type octets u := by
  rwa [hOctets, hUpdate]

/-- **A field with the values that go with its name is an attribute.** -/
theorem attribute_of_wellFormed (type : Option ItemType) {f : Field} (h : f.wellFormed = true) :
    Attribute type f.octets (f.update? (type.map (·.variant))) := by
  obtain ⟨t, payload⟩ := f
  -- Tags with a kind of attribute are alike; the ten others have rules of their own.
  cases hKind : t.kind? with
  | some kind => exact attribute_of_kind? type hKind h
  | none =>
    obtain ⟨hPayload, -⟩ := wellFormed_iff.1 h
    cases t with
    | runeCharges =>
      obtain ⟨n, rfl⟩ := eq_u8 hPayload
      exact (Attribute.shortSubType (.inl rfl) n).of_eq (octets_u8 .runeCharges n) rfl
    | count =>
      obtain ⟨n, rfl⟩ := eq_u8 hPayload
      exact (Attribute.shortSubType (.inr rfl) n).of_eq (octets_u8 .count n) rfl
    | charges =>
      obtain ⟨n, rfl⟩ := eq_u16 hPayload
      exact .subType n
    | duration =>
      obtain ⟨n, rfl⟩ := eq_i32 hPayload
      exact .duration n
    | decayState =>
      obtain ⟨n, rfl⟩ := eq_u8 hPayload
      -- The state 0 is read and left; any other makes the decay pending.
      by_cases hZero : n = 0
      · subst hZero
        exact .idle
      · exact (Attribute.pending hZero).of_eq (octets_u8 .decayState n) (if_pos hZero)
    | depotId =>
      obtain ⟨n, rfl⟩ := eq_u16 hPayload
      exact (Attribute.depotId n).of_eq rfl (onGroup_eq isDepot_variant type _)
    | doorId =>
      obtain ⟨n, rfl⟩ := eq_u8 hPayload
      exact (Attribute.doorId n).of_eq (octets_u8 .doorId n) (onGroup_eq isDoor_variant type _)
    | sleeper =>
      obtain ⟨id, rfl⟩ := eq_u32 hPayload
      exact (Attribute.sleeper id).of_eq rfl (onGroup_eq isBed_variant type _)
    | sleepStart =>
      obtain ⟨time, rfl⟩ := eq_u32 hPayload
      exact (Attribute.sleepStart time).of_eq rfl (onGroup_eq isBed_variant type _)
    | destination =>
      obtain ⟨x, y, z, rfl⟩ := eq_position hPayload
      exact (Attribute.destination x y z).of_eq (octets_position x y z)
        (onGroup_eq isTeleport_variant type _)
    | _ => cases hKind

/-- **An attribute is a field with the values that go with its name.** -/
theorem exists_field_of_attribute {type : Option ItemType} {used : List UInt8} {u : Option Update}
    (h : Attribute type used u) : ∃ f : Field, f.wellFormed = true ∧ used = f.octets
      ∧ u = f.update? (type.map (·.variant)) := by
  -- The plain attributes are rows of the table of tags; the others name their tag.
  cases h with
  | octet hRow n =>
    obtain ⟨t, rfl, hFormats, hKind⟩ := exists_tag_of_mem hRow
    exact ⟨⟨t, [.u8 n]⟩, wellFormed_iff.2 ⟨hFormats.symm, rfl⟩, (octets_u8 t n).symm,
      (Field.update?_number hKind rfl).symm⟩
  | short hRow n =>
    obtain ⟨t, rfl, hFormats, hKind⟩ := exists_tag_of_mem hRow
    exact ⟨⟨t, [.u16 n]⟩, wellFormed_iff.2 ⟨hFormats.symm, rfl⟩,
      (octets_singleton t (.u16 n)).symm, (Field.update?_number hKind rfl).symm⟩
  | long hRow n =>
    obtain ⟨t, rfl, hFormats, hKind⟩ := exists_tag_of_mem hRow
    exact ⟨⟨t, [.u32 n]⟩, wellFormed_iff.2 ⟨hFormats.symm, rfl⟩,
      (octets_singleton t (.u32 n)).symm, (Field.update?_number hKind rfl).symm⟩
  | signed hRow n =>
    obtain ⟨t, rfl, hFormats, hKind⟩ := exists_tag_of_mem hRow
    exact ⟨⟨t, [.i32 n]⟩, wellFormed_iff.2 ⟨hFormats.symm, rfl⟩,
      (octets_singleton t (.i32 n)).symm, (Field.update?_number hKind rfl).symm⟩
  | text hRow octets hLength =>
    obtain ⟨t, rfl, hFormats, hKind⟩ := exists_tag_of_mem hRow
    refine ⟨⟨t, [.block octets]⟩, wellFormed_iff.2 ⟨hFormats.symm, ?_⟩,
      (octets_singleton t (.block octets)).symm, (update?_block octets hKind).symm⟩
    simpa [Datum.fits] using hLength
  -- Two tags write a short sub type.
  | shortSubType hCode n =>
    rcases hCode with rfl | rfl
    · exact ⟨⟨.runeCharges, [.u8 n]⟩, rfl, (octets_u8 .runeCharges n).symm, rfl⟩
    · exact ⟨⟨.count, [.u8 n]⟩, rfl, (octets_u8 .count n).symm, rfl⟩
  | subType n => exact ⟨⟨.charges, [.u16 n]⟩, rfl, rfl, rfl⟩
  | duration n => exact ⟨⟨.duration, [.i32 n]⟩, rfl, rfl, rfl⟩
  | idle => exact ⟨⟨.decayState, [.u8 0]⟩, rfl, rfl, rfl⟩
  | @pending n hNonzero =>
    exact ⟨⟨.decayState, [.u8 n]⟩, rfl, (octets_u8 .decayState n).symm, (if_pos hNonzero).symm⟩
  | depotId n =>
    exact ⟨⟨.depotId, [.u16 n]⟩, rfl, rfl, (onGroup_eq isDepot_variant type _).symm⟩
  | doorId n =>
    exact ⟨⟨.doorId, [.u8 n]⟩, rfl, (octets_u8 .doorId n).symm,
      (onGroup_eq isDoor_variant type _).symm⟩
  | sleeper id =>
    exact ⟨⟨.sleeper, [.u32 id]⟩, rfl, rfl, (onGroup_eq isBed_variant type _).symm⟩
  | sleepStart time =>
    exact ⟨⟨.sleepStart, [.u32 time]⟩, rfl, rfl, (onGroup_eq isBed_variant type _).symm⟩
  | destination x y z =>
    exact ⟨⟨.destination, [.u16 x, .u16 y, .u8 z]⟩, rfl, (octets_position x y z).symm,
      (onGroup_eq isTeleport_variant type _).symm⟩

/-- **Attributes are fields**, and their updates are those of the fields. -/
theorem attributes_iff {type : Option ItemType} {used : List UInt8} {us : List Update} :
    Attributes type used us ↔ ∃ fs : List Field, (∀ f ∈ fs, f.wellFormed = true)
      ∧ used = fs.flatMap Field.octets
      ∧ us = fs.filterMap (Field.update? (type.map (·.variant))) := by
  constructor
  · intro h
    induction h with
    | nil => exact ⟨[], fun f hf => absurd hf List.not_mem_nil, rfl, rfl⟩
    | cons hFirst _ ih =>
      obtain ⟨f, hFormed, rfl, rfl⟩ := exists_field_of_attribute hFirst
      obtain ⟨fs, hAll, rfl, rfl⟩ := ih
      refine ⟨f :: fs, List.forall_mem_cons.2 ⟨hFormed, hAll⟩, rfl, ?_⟩
      cases hUpdate : f.update? (type.map (·.variant)) <;> simp [hUpdate]
  · -- A field without an update adds its octets and nothing else.
    rintro ⟨fs, hAll, rfl, rfl⟩
    induction fs with
    | nil => exact .nil
    | cons f fs ih =>
      obtain ⟨hFormed, hRest⟩ := List.forall_mem_cons.1 hAll
      have hCons := Attributes.cons (attribute_of_wellFormed type hFormed) (ih hRest)
      cases hUpdate : f.update? (type.map (·.variant)) <;>
        simpa [hUpdate] using hCons

/-! ## §4. Reading records. -/

/-- The octets of contents, behind the one that starts them. -/
def Language.contents (L : Language Record) : Language (List Record) := fun used children =>
  ∃ inner, used = littleEndian 4 children.length ++ inner ++ [0]
    ∧ children.length < 4294967296 ∧ L.Many inner children

/-- The contents of a record read a count and that many records of the level within. -/
theorem reads_readContents (typeId : TypeId) {step : Step Record} {L : Language Record}
    (h : Reads step L) : Reads (readContents typeId step) L.contents := by
  -- A count, so many records, and the octet that ends them.
  have hStep := reads_bind (f := fun _ => readCounted typeId step) reads_u32
    fun _ count => reads_bind (f := fun _ => readEnd typeId) (reads_times h count.toNat)
    fun _ children => reads_bind (f := endWith typeId children) reads_u8
    fun start code => reads_guard (code = endCode) children
      fun r => ⟨.mismatch typeId (.noEnd start code), r.position⟩
  refine hStep.congr ?_
  intro used children
  constructor
  · rintro ⟨_, _, count, rfl, rfl, inner, _, _, rfl, ⟨hCount, hMany⟩, _, _, _, rfl, rfl, rfl, rfl,
      rfl⟩
    refine ⟨inner, ?_, ?_, hMany⟩
    · simp [hCount, endCode]
    · rw [hCount]
      exact count.toNat_lt
  · rintro ⟨inner, rfl, hCount, hMany⟩
    have hNumber : (UInt32.ofNat children.length).toNat = children.length := by
      rw [UInt32.toNat_ofNat', Nat.mod_eq_of_lt hCount]
    refine ⟨littleEndian 4 children.length, inner ++ [0], UInt32.ofNat children.length, ?_, ?_,
      inner, [0], children, rfl, ⟨hNumber.symm, hMany⟩, [0], [], 0, rfl, rfl, rfl, rfl, rfl⟩
    · rw [List.append_assoc]
    · show littleEndian 4 children.length = littleEndian 4 (UInt32.ofNat children.length).toNat
      rw [hNumber]

/-- What may hold contents is told by the type, and an unknown type may. -/
theorem mayHold_variant (type : Option ItemType) :
    mayHold (type.map (·.variant)) = type.all (·.isContainer) := by
  cases type with
  | none => rfl
  | some t =>
    show t.variant.isContainer = t.isContainer
    unfold ItemType.variant ItemType.isContainer
    cases t.group <;> rfl

/-- The record of a type with the updates of fields. -/
def ofFields (c : Catalog) (typeId : TypeId) (fields : List Field)
    (children : Option (List Record)) : Record :=
  .mk typeId (c.usable? typeId).isSome
    (fields.filterMap (Field.update? ((c.usable? typeId).map (·.variant)))) children

/-- What stands behind the octet that closes the fields of a record, given the records that may
lie on the level below, if there is one. -/
def closingLanguage (c : Catalog) (below : Option (Language Record)) (typeId : TypeId)
    (fields : List Field × Closing) : Language Record := fun used rec =>
  match fields.2 with
  | .finish => used = [] ∧ rec = ofFields c typeId fields.1 none
  | .contents => (c.usable? typeId).all (·.isContainer) = true ∧ ∃ L ∈ below, ∃ children,
    L.contents used children ∧ rec = ofFields c typeId fields.1 (some children)

/-- What ends a record reads the language of its ending, if the level within reads its own. -/
theorem reads_closeWith (c : Catalog) {below : Option (Step Record)}
    {lower : Option (Language Record)} (typeId : TypeId) (fields : List Field × Closing)
    (h : Option.Rel Reads below lower) :
    Reads (closeWith c below typeId fields) (closingLanguage c lower typeId fields) := by
  obtain ⟨fields, closing⟩ := fields
  cases closing with
  | finish => exact reads_pure _
  | contents =>
    unfold closeWith closingLanguage
    dsimp only
    rw [mayHold_variant]
    -- Contents are refused to a type that holds none, and below the last level.
    cases (c.usable? typeId).all (·.isContainer) with
    | false =>
      refine (reads_throw fun r => ⟨.mismatch typeId .contentsRefused, r.position⟩).congr ?_
      simp
    | true =>
      cases h with
      | none =>
        refine (reads_throw fun r => ⟨.mismatch typeId .tooDeep, r.position⟩).congr ?_
        simp
      | @some step L hStep =>
        have hClose := reads_bind
          (f := fun _ children r => .ok (ofFields c typeId fields (some children), r))
          (reads_readContents typeId hStep)
          fun _ children => reads_pure (ofFields c typeId fields (some children))
        -- The two steps read the octets in two parts, of which the second is empty.
        refine hClose.congr ?_
        intro used rec
        constructor
        · rintro ⟨front, _, children, rfl, hContents, rfl, rfl⟩
          rw [List.append_nil]
          exact ⟨rfl, L, rfl, children, hContents, rfl⟩
        · rintro ⟨-, L', hL, children, hContents, rfl⟩
          obtain rfl := Option.some_inj.1 hL
          exact ⟨used, [], children, (List.append_nil used).symm, hContents, rfl, rfl⟩

/-- The records that may lie in one of the given depth. -/
def lower? (c : Catalog) (depth : Nat) : Option (Language Record) :=
  if depth < 24 then some (IsRecord c (depth + 1)) else none

/-- The parts of a record are a record. -/
theorem isRecord_of_closing {c : Catalog} {depth : Nat} {typeId : TypeId}
    {fields : List Field × Closing} {used : List UInt8} {rec : Record}
    (hFormed : ∀ f ∈ fields.1, f.wellFormed = true)
    (h : closingLanguage c (lower? c depth) typeId fields used rec) :
    IsRecord c depth (littleEndian 2 typeId.toNat
      ++ (fields.1.flatMap Field.octets ++ [fields.2.code] ++ used)) rec := by
  obtain ⟨fs, closing⟩ := fields
  have hAttributes : Attributes (c.usable? typeId) (fs.flatMap Field.octets) _ :=
    attributes_iff.2 ⟨fs, hFormed, rfl, rfl⟩
  cases closing with
  | finish =>
    obtain ⟨rfl, rfl⟩ := h
    rw [List.append_nil, ← List.append_assoc]
    exact .ended typeId hAttributes
  | contents =>
    obtain ⟨hType, L, hLower, children, ⟨inner, rfl, hCount, hMany⟩, rfl⟩ := h
    obtain ⟨hDepth, hLower⟩ := Option.ite_none_right_eq_some.1 hLower
    obtain rfl := Option.some_inj.1 hLower
    -- The level below is there, since the contents were read with it.
    have hHolds := IsRecord.holding typeId hAttributes hType hDepth hCount
      (areRecords_iff.2 hMany)
    rw [List.append_assoc] at hHolds
    rwa [List.append_assoc (fs.flatMap Field.octets)]

/-- A record has these parts. -/
theorem IsRecord.parts {c : Catalog} {depth : Nat} {octets : List UInt8} {rec : Record}
    (h : IsRecord c depth octets rec) : ∃ (typeId : TypeId) (fields : List Field × Closing)
      (used : List UInt8), (∀ f ∈ fields.1, f.wellFormed = true)
      ∧ closingLanguage c (lower? c depth) typeId fields used rec
      ∧ octets = littleEndian 2 typeId.toNat
        ++ (fields.1.flatMap Field.octets ++ [fields.2.code] ++ used) := by
  cases h with
  | ended id hAttributes =>
    obtain ⟨fs, hFormed, rfl, rfl⟩ := attributes_iff.1 hAttributes
    -- Of a record without contents nothing stands behind the end mark.
    refine ⟨id, (fs, .finish), [], hFormed, ⟨rfl, rfl⟩, ?_⟩
    rw [List.append_nil, ← List.append_assoc]
    rfl
  | @holding _ id _ inner _ children hAttributes hType hDepth hCount hChildren =>
    obtain ⟨fs, hFormed, rfl, rfl⟩ := attributes_iff.1 hAttributes
    -- Behind the mark of the contents stand their number, the records one level down, and the end
    -- mark.
    refine ⟨id, (fs, .contents), littleEndian 4 children.length ++ inner ++ [0], hFormed,
      ⟨hType, IsRecord c (depth + 1), if_pos hDepth, children,
        ⟨inner, rfl, hCount, areRecords_iff.1 hChildren⟩, rfl⟩, ?_⟩
    rw [List.append_assoc, List.append_assoc (fs.flatMap Field.octets)]
    rfl

/-- **A record is read on its level**, if those that lie in it are. -/
theorem reads_decodeWith (c : Catalog) {below : Option (Step Record)} {depth : Nat}
    (hBelow : Option.Rel Reads below (lower? c depth)) :
    Reads (decodeWith c below) (IsRecord c depth) := by
  -- The type, the fields and what closes them, one behind the other.
  have hStep := reads_bind
    (f := fun _ typeId r => readFields r >>= fun q => closeWith c below typeId q.1 q.2) reads_u16
    fun _ typeId => reads_bind (f := fun _ fields => closeWith c below typeId fields)
      reads_readFields fun _ fields => reads_closeWith c typeId fields hBelow
  refine hStep.congr ?_
  intro used rec
  constructor
  · rintro ⟨_, _, typeId, rfl, rfl, _, back, fields, rfl, ⟨hFormed, rfl⟩, hClosing⟩
    exact isRecord_of_closing hFormed hClosing
  · intro h
    obtain ⟨typeId, fields, back, hFormed, hClosing, rfl⟩ := h.parts
    exact ⟨_, _, typeId, rfl, rfl, _, back, fields, rfl, ⟨hFormed, rfl⟩, hClosing⟩

/-- **Records are read on every level.** -/
theorem reads_decodeWithin (c : Catalog) (levels : Nat) {depth : Nat} (h : depth + levels = 24) :
    Reads (decodeWithin c levels) (IsRecord c depth) := by
  induction levels generalizing depth with
  | zero =>
    rw [decodeWithin_zero]
    refine reads_decodeWith c ?_
    -- On the last level there is no level below that contents could be read on.
    rw [lower?, if_neg (by omega)]
    exact .none
  | succ levels ih =>
    rw [decodeWithin_succ]
    refine reads_decodeWith c ?_
    rw [lower?, if_pos (by omega)]
    exact .some (ih (by omega))

/-- **The octets that are read are those of the format**: a record is read just where the next
octets are one, the cursor then stands right behind them, and the record is the one that they
stand for. -/
theorem decode_iff_isRecord (c : Catalog) (r r' : Reader) (rec : Record) :
    decode c r = .ok (rec, r') ↔ ∃ n ≤ r.rest.length, IsRecord c 0 (r.rest.take n) rec
      ∧ r' = ⟨r.position + n, r.rest.drop n⟩ := by
  have hReads : Reads (decode c) (IsRecord c 0) := reads_decodeWithin c maxDepth rfl
  rw [hReads r rec r']
  constructor
  · -- What is passed is the front of what was left.
    rintro ⟨used, hPasses, hRecord⟩
    obtain ⟨hRest, hPosition⟩ := hPasses
    refine ⟨used.length, ?_, ?_, ?_⟩
    · rw [hRest, List.length_append]
      omega
    · rwa [hRest, List.take_left]
    · rw [hRest, List.drop_left, ← hPosition]
  · rintro ⟨n, hLength, hRecord, rfl⟩
    refine ⟨r.rest.take n, ⟨?_, ?_⟩, hRecord⟩
    · exact (List.take_append_drop n r.rest).symm
    · show r.position + n = r.position + (r.rest.take n).length
      rw [List.length_take_of_le hLength]

end Record

end Homestead

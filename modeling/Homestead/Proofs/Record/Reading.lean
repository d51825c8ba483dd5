/-
  Homestead.Proofs.Record.Reading
  ───────────────────────────────
  **READING WHAT WAS WRITTEN.**

  The octets of a field read back as the field, the fields of an item as
  its fields, and the octets of a tree as its record, whatever follows
  them, as long as containers do not lie deeper in one another than the
  reader goes.  Where they do, reading fails.

  Main results:
    * `readFields_octets` — fields and what ends them;
    * `decodeWithin_encode` — a tree that is not too deep reads back;
    * `decodeWithin_encode_deep` — a tree that is too deep does not.
-/
import Homestead.Record.Decode
import Homestead.Proofs.Item.Trees
import Homestead.Proofs.Record.Fields

open Homestead.Stream

namespace Homestead

namespace Record

/-! ## §1. Fields. -/

/-- A datum that is written is read back, with what follows left over. -/
theorem value_datum (d : Datum) (h : d.fits) (rest : List UInt8) (position : Nat) :
    value (Reader.datum d.format) ⟨position, d.octets ++ rest⟩
      = .ok (d, ⟨position + d.octets.length, rest⟩) :=
  value_eq_ok.2 (Reader.datum_octets d h rest position)

/-- An octet is read back. -/
theorem value_u8 (b : UInt8) (rest : List UInt8) (position : Nat) :
    value Reader.u8 ⟨position, b :: rest⟩ = .ok (b, ⟨position + 1, rest⟩) := by
  have h := Reader.u8_octets b rest position
  have hOctets : (Datum.u8 b).octets = [b] := by simp [Datum.octets, littleEndian]
  rw [hOctets] at h
  exact value_eq_ok.2 h

/-- The data of a field are read back, one after another. -/
theorem readData_octets (ds : List Datum) (h : ds.all Datum.fits) (rest : List UInt8)
    (position : Nat) :
    readData (ds.map Datum.format) ⟨position, ds.flatMap Datum.octets ++ rest⟩
      = .ok (ds, ⟨position + (ds.flatMap Datum.octets).length, rest⟩) := by
  induction ds generalizing position with
  | nil => rfl
  | cons d ds ih =>
    rw [List.all_cons, Bool.and_eq_true] at h
    rw [List.map_cons, List.flatMap_cons, List.append_assoc, readData, value_datum d h.1]
    show (readData _ _ >>= _) = _
    rw [ih h.2, List.length_append, ← Nat.add_assoc]
    rfl

/-- The octet that closes the fields. -/
def Closing.code : Closing → UInt8
  | .finish => endCode
  | .contents => contentsCode

/-- An end mark is read back. -/
theorem readMark_code (closing : Closing) (rest : List UInt8) (position : Nat) :
    readMark ⟨position, closing.code :: rest⟩ = .ok (.close closing, ⟨position + 1, rest⟩) := by
  unfold readMark
  rw [value_u8]
  cases closing <;> rfl

/-- A field is read back as its tag and its data. -/
theorem readMark_octets (f : Field) (h : f.wellFormed) (rest : List UInt8) (position : Nat) :
    readMark ⟨position, f.octets ++ rest⟩
      = .ok (.field f, ⟨position + f.octets.length, rest⟩) := by
  obtain ⟨tag, payload⟩ := f
  simp only [Field.wellFormed, Bool.and_eq_true, beq_iff_eq] at h
  have hData := readData_octets payload h.2 rest (position + 1)
  unfold readMark Field.octets
  rw [List.cons_append, value_u8]
  show (if tag.code = endCode then _ else _ : Except Failure (Mark × Reader)) = _
  -- No tag is mistaken for a mark that ends the fields.
  rw [if_neg (Tag.code_ne_end tag), if_neg (Tag.code_ne_contents tag), Tag.ofCode?_code]
  show (readData tag.formats _ >>= _ : Except Failure (Mark × Reader)) = _
  rw [← h.1, hData, List.length_cons]
  show Except.ok _ = _
  rw [show position + 1 + (payload.flatMap Datum.octets).length
      = position + ((payload.flatMap Datum.octets).length + 1) by omega]

/-- At an end mark there are no more fields. -/
theorem readFields_of_close {r r' : Reader} {closing : Closing}
    (h : readMark r = .ok (.close closing, r')) : readFields r = .ok (([], closing), r') := by
  -- Of the three branches only that of the end mark agrees with what was read.
  rw [readFields]
  split
  next h' =>
    rw [h] at h'
    cases h'
  next h' =>
    rw [h] at h'
    cases h'
    rfl
  next h' =>
    rw [h] at h'
    cases h'

/-- A field is read first, and the others behind it. -/
theorem readFields_of_field {r r' r'' : Reader} {f : Field} {fs : List Field} {closing : Closing}
    (h : readMark r = .ok (.field f, r')) (hs : readFields r' = .ok ((fs, closing), r'')) :
    readFields r = .ok ((f :: fs, closing), r'') := by
  -- The mark is read once; two of the three branches are not that of a field.
  rw [readFields]
  split
  next h' =>
    rw [h] at h'
    cases h'
  next h' =>
    rw [h] at h'
    cases h'
  next h' =>
    rw [h] at h'
    cases h'
    rw [hs]

/-- **Fields read back up to the octet that closes them.** -/
theorem readFields_octets (fs : List Field) (h : ∀ f ∈ fs, f.wellFormed) (closing : Closing)
    (rest : List UInt8) (position : Nat) :
    readFields ⟨position, fs.flatMap Field.octets ++ closing.code :: rest⟩
      = .ok ((fs, closing), ⟨position + (fs.flatMap Field.octets).length + 1, rest⟩) := by
  induction fs generalizing position with
  | nil => exact readFields_of_close (readMark_code closing rest position)
  | cons f fs ih =>
    have hTail := ih (fun f' hf' => h f' (List.mem_cons_of_mem f hf')) (position + f.octets.length)
    rw [List.flatMap_cons, List.append_assoc, List.length_append, ← Nat.add_assoc]
    exact readFields_of_field (readMark_octets f (h f List.mem_cons_self) _ position) hTail

/-- Every field that an item is written as has the layout that goes with its name. -/
theorem wellFormed_of_mem_fields {c : Catalog} {i : Item} {f : Field} (h : f ∈ i.fields c) :
    f.wellFormed := by
  rw [Item.mem_fields_iff] at h
  obtain ⟨tag, payload⟩ := f
  -- Texts, fields of variants, and the two tags that are never written differ from the rest.
  cases tag
  case text | description | writer | name | article | pluralName =>
    obtain ⟨_, rfl⟩ := Item.given_eq_some.1 h
    show (_ && (Datum.fits _ && true)) = true
    rw [Datum.text_fits]
    rfl
  case sleeper | sleepStart | destination =>
    simp only [Item.payload?] at h
    split at h
    · obtain ⟨_, rfl⟩ := Item.given_eq_some.1 h
      rfl
    · cases h
  case depotId | runeCharges => cases h
  all_goals
    obtain ⟨_, rfl⟩ := Item.given_eq_some.1 h
    rfl

/-! ## §2. Records of trees. -/

end Record

mutual

/-- The record that an item and what it holds are read back as. -/
def ItemTree.record (c : Catalog) : ItemTree → Record
  | .node item contents =>
    let host := (c.usable? item.typeId).map (·.variant)
    .mk item.typeId (c.usable? item.typeId).isSome
      ((item.fields c).filterMap (Record.Field.update? host))
      (if item.isContainer then some (ItemTree.records c contents) else none)

/-- The records of a list of trees. -/
def ItemTree.records (c : Catalog) : List ItemTree → List Record
  | [] => []
  | t :: ts => t.record c :: ItemTree.records c ts

end

/-- What an item needs to be read back: it holds items only if it can, its type can too where the
catalog knows it, and four octets have room for the number of items that it holds. -/
structure Item.Readable (c : Catalog) (i : Item) (contents : List ItemTree) : Prop where
  /-- Contents lie in containers. -/
  hollow : ¬ i.isContainer → contents = []
  /-- Contents are expected. -/
  holds : i.isContainer → Record.mayHold ((c.usable? i.typeId).map (·.variant))
  /-- There are not too many. -/
  counted : i.isContainer → contents.length < 4294967296

namespace Record

/-- A number of two octets is read back. -/
theorem value_u16 (n : UInt16) (rest : List UInt8) (position : Nat) :
    value Reader.u16 ⟨position, (Datum.u16 n).octets ++ rest⟩
      = .ok (n, ⟨position + 2, rest⟩) :=
  value_eq_ok.2 (Reader.u16_octets n rest position)

/-- A number of four octets is read back. -/
theorem value_u32 (n : UInt32) (rest : List UInt8) (position : Nat) :
    value Reader.u32 ⟨position, (Datum.u32 n).octets ++ rest⟩
      = .ok (n, ⟨position + 4, rest⟩) :=
  value_eq_ok.2 (Reader.u32_octets n rest position)

theorem u16_octets_length (n : UInt16) : (Datum.u16 n).octets.length = 2 :=
  littleEndian_length 2 n.toNat

/-- What reading does once the head of an item and the octet behind it are read. -/
def behindHead (c : Catalog) (levels : Nat) (i : Item) (closing : Closing) (r : Reader) :
    Except Failure (Record × Reader) :=
  let host := (c.usable? i.typeId).map (·.variant)
  let updates := (i.fields c).filterMap (Field.update? host)
  match closing with
  | .finish => .ok (.mk i.typeId (c.usable? i.typeId).isSome updates none, r)
  | .contents =>
    if !mayHold host then .error ⟨.mismatch i.typeId .contentsRefused, r.position⟩
    else match levels with
      | 0 => .error ⟨.mismatch i.typeId .tooDeep, r.position⟩
      | levels + 1 => do
        let (children, r) ← readContents i.typeId (decodeWithin c levels) r
        return (.mk i.typeId (c.usable? i.typeId).isSome updates (some children), r)

/-- **The head of an item reads back as its type and its fields.** -/
theorem decodeWithin_head (c : Catalog) (levels : Nat) (i : Item) (closing : Closing)
    (rest : List UInt8) (position : Nat) :
    decodeWithin c levels ⟨position, i.headOctets c ++ closing.code :: rest⟩
      = behindHead c levels i closing ⟨position + (i.headOctets c).length + 1, rest⟩ := by
  have hFields := readFields_octets (i.fields c) (fun f hf => wellFormed_of_mem_fields hf) closing
    rest (position + 2)
  -- Two octets of the type, the fields, and the mark that closes them.
  have hPosition : position + (i.headOctets c).length + 1
      = position + 2 + ((i.fields c).flatMap Field.octets).length + 1 := by
    rw [Item.headOctets, List.length_append, u16_octets_length]
    omega
  rw [hPosition]
  unfold decodeWithin Item.headOctets
  rw [List.append_assoc, value_u16]
  show (readFields _ >>= _ : Except Failure (Record × Reader)) = _
  rw [hFields]
  cases closing <;> rfl

/-- The octets of an item that holds items. -/
theorem encode_container (c : Catalog) {i : Item} (contents : List ItemTree) (rest : List UInt8)
    (h : i.isContainer) :
    (ItemTree.node i contents).encode c ++ rest
      = i.headOctets c ++ Closing.contents.code
          :: (littleEndian 4 contents.length ++ (ItemTree.encodeAll c contents
            ++ endCode :: rest)) := by
  rw [ItemTree.encode, if_pos h]
  simp [Closing.code]

/-- The octets of an item that holds none. -/
theorem encode_plain (c : Catalog) {i : Item} (contents : List ItemTree) (rest : List UInt8)
    (h : ¬ i.isContainer) :
    (ItemTree.node i contents).encode c ++ rest
      = i.headOctets c ++ Closing.finish.code :: rest := by
  rw [ItemTree.encode, if_neg h]
  simp [Closing.code]

/-- The number of octets of an item that holds items. -/
theorem length_encode_container (c : Catalog) {i : Item} (contents : List ItemTree)
    (h : i.isContainer) :
    ((ItemTree.node i contents).encode c).length
      = (i.headOctets c).length + 1 + 4 + (ItemTree.encodeAll c contents).length + 1 := by
  have hOctets := congrArg List.length (encode_container c contents [] h)
  simp only [List.append_nil, List.length_append, List.length_cons, littleEndian_length,
    List.length_nil] at hOctets
  omega

/-- An item that holds nothing is written as its head and an end mark. -/
theorem length_encode_plain (c : Catalog) {i : Item} (contents : List ItemTree)
    (h : ¬ i.isContainer) :
    ((ItemTree.node i contents).encode c).length = (i.headOctets c).length + 1 := by
  have hOctets := congrArg List.length (encode_plain c contents [] h)
  simp only [List.append_nil, List.length_append, List.length_cons, List.length_nil] at hOctets
  omega

/-- The count in front of the contents, where there is room for it. -/
theorem value_count (n : Nat) (h : n < 4294967296) (rest : List UInt8) (position : Nat) :
    value Reader.u32 ⟨position, littleEndian 4 n ++ rest⟩
      = .ok (UInt32.ofNat n, ⟨position + 4, rest⟩) := by
  have hNat : (UInt32.ofNat n).toNat = n := by
    rw [UInt32.toNat_ofNat', Nat.mod_eq_of_lt h]
  have hCount := value_u32 (UInt32.ofNat n) rest position
  rwa [Datum.octets, hNat] at hCount

/-- How contents go: the count, the records, the octet that ends them. -/
theorem readContents_octets (id : TypeId) (step : Step Record) (n : Nat) (h : n < 4294967296)
    (rest : List UInt8) (position : Nat) :
    readContents id step ⟨position, littleEndian 4 n ++ rest⟩ = (do
      let (children, r) ← times step n ⟨position + 4, rest⟩
      let (code, r') ← value Reader.u8 r
      if code = endCode then return (children, r')
      else throw ⟨.mismatch id (.noEnd r.position code), r'.position⟩) := by
  have hNat : (UInt32.ofNat n).toNat = n := by
    rw [UInt32.toNat_ofNat', Nat.mod_eq_of_lt h]
  unfold readContents
  rw [value_count n h]
  show (times step (UInt32.ofNat n).toNat _ >>= _ : Except Failure (List Record × Reader)) = _
  rw [hNat]

mutual

/-- **A tree that is not too deep reads back**, and the cursor stops right behind it. -/
theorem decodeWithin_encode (c : Catalog) :
    ∀ (t : ItemTree) (levels : Nat), t.Every (Item.Readable c) → t.nesting ≤ levels →
      ∀ (rest : List UInt8) (position : Nat),
        decodeWithin c levels ⟨position, t.encode c ++ rest⟩
          = .ok (t.record c, ⟨position + (t.encode c).length, rest⟩)
  | .node i contents, levels, hEvery, hNesting, rest, position => by
    obtain ⟨hReadable, hContents⟩ := hEvery
    by_cases hHolds : i.isContainer
    · rw [ItemTree.nesting, if_pos hHolds] at hNesting
      obtain ⟨levels, rfl⟩ := Nat.exists_eq_add_of_le' (show 1 ≤ levels by omega)
      rw [encode_container c contents rest hHolds, decodeWithin_head, behindHead]
      -- One level is spent on the container, and the contents have those that are left.
      have hTimes := times_encodeAll c contents levels hContents (by omega)
      rw [if_neg (by simpa using hReadable.holds hHolds)]
      show (readContents i.typeId _ _ >>= _ : Except Failure (Record × Reader)) = _
      rw [readContents_octets _ _ _ (hReadable.counted hHolds), hTimes]
      dsimp only [bind, Except.bind]
      rw [value_u8, ItemTree.record, if_pos hHolds, length_encode_container c contents hHolds]
      simp only [← Nat.add_assoc]
      rfl
    · rw [encode_plain c contents rest hHolds, decodeWithin_head, ItemTree.record, if_neg hHolds,
        length_encode_plain c contents hHolds]
      rfl

/-- Trees that are not too deep are read back one after another, by induction over them. -/
theorem times_encodeAll (c : Catalog) :
    ∀ (ts : List ItemTree) (levels : Nat), ItemTree.EveryOf (Item.Readable c) ts →
      ItemTree.nestings ts ≤ levels → ∀ (rest : List UInt8) (position : Nat),
        times (decodeWithin c levels) ts.length ⟨position, ItemTree.encodeAll c ts ++ rest⟩
          = .ok (ItemTree.records c ts, ⟨position + (ItemTree.encodeAll c ts).length, rest⟩)
  | [], _, _, _, _, _ => rfl
  | t :: ts, levels, hEvery, hNesting, rest, position => by
    rw [ItemTree.nestings, Nat.max_le] at hNesting
    have hHead := decodeWithin_encode c t levels hEvery.1 hNesting.1
    have hTail := times_encodeAll c ts levels hEvery.2 hNesting.2
    rw [ItemTree.encodeAll, List.append_assoc, List.length_cons, times, hHead]
    show (times _ _ _ >>= _ : Except Failure (List Record × Reader)) = _
    rw [hTail, List.length_append, ← Nat.add_assoc]
    rfl

end

/-- **No tree's octets are the beginning of another one's.** -/
theorem encode_append_inj {c : Catalog} {t u : ItemTree} (ht : t.Every (Item.Readable c))
    (hu : u.Every (Item.Readable c)) {rest rest' : List UInt8}
    (h : t.encode c ++ rest = u.encode c ++ rest') : t.encode c = u.encode c ∧ rest = rest' := by
  have hThis := decodeWithin_encode c t (max t.nesting u.nesting) ht (Nat.le_max_left _ _) rest 0
  have hThat := decodeWithin_encode c u (max t.nesting u.nesting) hu (Nat.le_max_right _ _) rest' 0
  -- Both are read to their end, which is the same.
  rw [h, hThat] at hThis
  simp only [Except.ok.injEq, Prod.mk.injEq, Reader.mk.injEq, Nat.zero_add] at hThis
  exact List.append_inj h hThis.2.1.symm

/-- So as many trees with the same octets have the same octets one by one. -/
theorem map_encode_eq {c : Catalog} : ∀ {ts us : List ItemTree},
    ItemTree.EveryOf (Item.Readable c) ts → ItemTree.EveryOf (Item.Readable c) us →
    ts.length = us.length → ItemTree.encodeAll c ts = ItemTree.encodeAll c us →
    ts.map (·.encode c) = us.map (·.encode c)
  | [], [], _, _, _, _ => rfl
  | t :: ts, u :: us, hts, hus, hLength, h => by
    rw [ItemTree.encodeAll, ItemTree.encodeAll] at h
    obtain ⟨hFirst, hRest⟩ := encode_append_inj hts.1 hus.1 h
    rw [List.map_cons, List.map_cons, hFirst,
      map_encode_eq hts.2 hus.2 (Nat.succ.inj hLength) hRest]

/-! ## §3. Trees that are too deep. -/

mutual

/-- **A tree that is too deep does not read back.** -/
theorem decodeWithin_encode_deep (c : Catalog) :
    ∀ (t : ItemTree) (levels : Nat), t.Every (Item.Readable c) → levels < t.nesting →
      ∀ (rest : List UInt8) (position : Nat),
        ∃ failure, decodeWithin c levels ⟨position, t.encode c ++ rest⟩ = .error failure
  | .node i contents, levels, hEvery, hNesting, rest, position => by
    obtain ⟨hReadable, hContents⟩ := hEvery
    by_cases hHolds : i.isContainer
    · rw [ItemTree.nesting, if_pos hHolds] at hNesting
      have hMay : ¬ (!mayHold ((c.usable? i.typeId).map (·.variant))) = true := by
        simpa using hReadable.holds hHolds
      rw [encode_container c contents rest hHolds, decodeWithin_head]
      -- With no level left the list itself is rejected, however short it is.
      cases levels with
      | zero =>
        rw [behindHead, if_neg hMay]
        exact ⟨_, rfl⟩
      | succ levels =>
        rw [behindHead, if_neg hMay]
        -- Otherwise something in the list is too deep for the levels that are left.
        obtain ⟨failure, hFails⟩ := times_encodeAll_deep c contents levels hContents (by omega)
          (endCode :: rest) (position + (i.headOctets c).length + 1 + 4)
        show ∃ failure, (readContents i.typeId _ _ >>= _ : Except Failure (Record × Reader)) = _
        rw [readContents_octets _ _ _ (hReadable.counted hHolds), hFails]
        exact ⟨failure, rfl⟩
    · -- An item that holds nothing is not nested at all.
      rw [hReadable.hollow hHolds, ItemTree.nesting, if_neg hHolds, ItemTree.nestings] at hNesting
      cases hNesting

/-- One tree that is too deep is enough for the reading of all to fail. -/
theorem times_encodeAll_deep (c : Catalog) :
    ∀ (ts : List ItemTree) (levels : Nat), ItemTree.EveryOf (Item.Readable c) ts →
      levels < ItemTree.nestings ts → ∀ (rest : List UInt8) (position : Nat),
        ∃ failure, times (decodeWithin c levels) ts.length
          ⟨position, ItemTree.encodeAll c ts ++ rest⟩ = .error failure
  | [], _, _, hNesting, _, _ => by cases hNesting
  | t :: ts, levels, hEvery, hNesting, rest, position => by
    rw [ItemTree.encodeAll, List.append_assoc, List.length_cons, times]
    -- The first tree is read and a later one fails, or the first one fails.
    by_cases hHead : t.nesting ≤ levels
    · rw [ItemTree.nestings] at hNesting
      obtain ⟨failure, hFails⟩ := times_encodeAll_deep c ts levels hEvery.2 (by omega) rest
        (position + (t.encode c).length)
      rw [decodeWithin_encode c t levels hEvery.1 hHead]
      show ∃ failure, (times _ _ _ >>= _ : Except Failure (List Record × Reader)) = _
      rw [hFails]
      exact ⟨failure, rfl⟩
    · obtain ⟨failure, hFails⟩ := decodeWithin_encode_deep c t levels hEvery.1 (by omega)
        (ItemTree.encodeAll c ts ++ rest) position
      rw [hFails]
      exact ⟨failure, rfl⟩

end

end Record

end Homestead

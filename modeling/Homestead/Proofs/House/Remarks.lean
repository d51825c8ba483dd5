/-
  Homestead.Proofs.House.Remarks
  ──────────────────────────────
  **WHAT A REMARK IN A LIST CHANGES.**

  A line of a text changes nothing, whatever stands before and after it, if
  its entries neither reject nor let in anybody.  It changes something in
  some list otherwise: an entry that rejects keeps somebody out of a list
  that names him, and if none rejects, one that lets somebody in does so
  where nothing else is written.  The only entry that says nothing is a
  bare `!`, since every other pattern spells some name.

  A line with a remark has the entries that stand behind its first comma.
  So it is no different from a line with these alone.

  Main results:
    * `AccessEntry.isSilent_iff` — which entries say nothing;
    * `AccessList.isSpare_iff` — which lines change nothing;
    * `AccessList.remark_counts_behind_comma` — what a remark changes.
-/
import Homestead.Proofs.House.Decisions
import Homestead.Proofs.Text.Lowered

namespace Homestead

/-! ## §1. Entries that say nothing. -/

namespace AccessEntry

variable {names : NameSource} {E E' : AccessEntry → Prop} {entry : AccessEntry} {visitor : Visitor}

/-- The entry neither rejects nor lets in anybody, whoever is who. -/
structure IsSilent (entry : AccessEntry) : Prop where
  /-- It rejects nobody. -/
  unrejecting : ∀ name, ¬ entry.Rejects name
  /-- It lets nobody in. -/
  unadmitting : ∀ names visitor, ¬ entry.LetsIn names visitor

/-- Whatever stands in a lower-case form spells a name. -/
theorem exists_spelled {text : String} {pattern : List Char}
    (h : pattern ⊆ (Text.lowercase text).toList) :
    ∃ name, Wildcard.Spells pattern (Text.lowercase name).toList := by
  refine ⟨String.ofList (Wildcard.literals pattern), ?_⟩
  have hSub : Wildcard.literals pattern ⊆ pattern := List.filter_subset_self _
  rw [Text.lowercase_ofList_of_subset (List.Subset.trans hSub h), String.toList_ofList]
  exact Wildcard.spells_literals pattern

/-- Only `!` is lower-cased to `!`. -/
theorem eq_bang_of_lowercase {text : String} (h : (Text.lowercase text).toList = ['!']) :
    text = "!" := by
  -- A text whose lower-case form is plain is plain, so its characters are ASCII.
  have hPlain : Text.Plain text := by
    refine Text.plain_of_lowercase fun c hc => ?_
    rw [h, List.mem_singleton] at hc
    rw [hc]
    decide
  rw [Text.lowercase_plain hPlain, Text.toList_lowerAscii, List.map_eq_singleton_iff] at h
  obtain ⟨c, hText, hLower⟩ := h
  have hBang : c = '!' := by
    refine Text.forall_ascii (p := fun c => Text.lowerAsciiChar c = '!' → c = '!') (by decide) c ?_
      hLower
    exact hPlain.ascii c (hText ▸ List.mem_singleton_self c)
  apply String.toList_injective
  rw [hText, hBang]
  rfl

/-- All names name number 0. -/
def oneForAll : NameSource :=
  ⟨fun _ _ => some 0⟩

/-- **Only a bare `!` says nothing** among the entries that can be written. -/
theorem isSilent_iff {piece : String} (h : IsEntry piece entry) :
    entry.IsSilent ↔ entry = .expression "!" := by
  constructor
  · intro hSilent
    cases h with
    -- Names let somebody in as soon as they are known, which a source decides.
    | guild hLength hFirst =>
      exact (hSilent.unadmitting oneForAll ⟨"", 0, some 0⟩ ⟨0, rfl, rfl⟩).elim
    | player hLength hPiece hRemark hGuild hMark =>
      exact (hSilent.unadmitting oneForAll ⟨"", 0, none⟩ rfl).elim
    | expression hLength hPiece hRemark hGuild hMark =>
      have hSome := Text.lowercase_toList_ne_nil (hPiece ▸ List.cons_ne_nil _ _)
      obtain ⟨d, pattern, hLower⟩ := List.exists_cons_of_ne_nil hSome
      by_cases hBang : d = '!'
      · subst hBang
        -- With more than the mark, it rejects a name that its own pattern spells.
        by_cases hBare : pattern = []
        · rw [hBare] at hLower
          rw [eq_bang_of_lowercase hLower]
        · obtain ⟨name, hSpells⟩ := exists_spelled (hLower ▸ List.subset_cons_self '!' pattern)
          exact (hSilent.unrejecting name ⟨pattern, hLower, hBare, hSpells⟩).elim
      · -- Without the mark, it lets such a name in.
        obtain ⟨name, hSpells⟩ := exists_spelled (List.Subset.refl (Text.lowercase piece).toList)
        rw [hLower] at hSpells
        exact (hSilent.unadmitting oneForAll ⟨name, 0, none⟩
          ⟨d, pattern, hLower, hBang, hSpells⟩).elim
  · rintro rfl
    have hLower : (Text.lowercase "!").toList = ['!'] := by decide +kernel
    constructor
    · rintro name ⟨pattern, hText, hNotEmpty, -⟩
      rw [hLower] at hText
      exact hNotEmpty (List.cons.inj hText).2.symm
    · rintro names visitor ⟨c, pattern, hText, hGrant, -⟩
      rw [hLower] at hText
      exact hGrant (List.cons.inj hText).1.symm

/-- Entries that say nothing change no decision. -/
theorem admit_iff_of_silent (hMore : ∀ entry, E' entry → E entry)
    (hSilent : ∀ entry, E entry → E' entry ∨ entry.IsSilent) :
    Admit names E visitor ↔ Admit names E' visitor := by
  constructor
  · rintro ⟨hNone, entry, hEntry, hLetsIn⟩
    refine ⟨fun entry hEntry => hNone entry (hMore entry hEntry), entry, ?_, hLetsIn⟩
    exact (hSilent entry hEntry).resolve_right fun h => h.unadmitting names visitor hLetsIn
  · rintro ⟨hNone, entry, hEntry, hLetsIn⟩
    refine ⟨fun entry hEntry => ?_, entry, hMore entry hEntry, hLetsIn⟩
    obtain hSaid | hNothing := hSilent entry hEntry
    · exact hNone entry hSaid
    · exact hNothing.unrejecting visitor.name

end AccessEntry

/-! ## §2. Lines that change nothing. -/

namespace AccessList

/-- The text of some lines. -/
def ofLines (lines : List (List Char)) : String :=
  String.ofList (['\n'].intercalate lines)

/-- What the list of some lines decides. -/
theorem admits_ofLines_iff (names : NameSource) (lines : List (List Char)) (visitor : Visitor) :
    (ofText (ofLines lines) names).1.admits visitor = true
      ↔ AccessEntry.Admit names (fun entry => entry ∈ lines.flatMap AccessEntry.entries) visitor := by
  rw [admits_ofText_iff, ofLines, AccessEntry.ofText_ofList, AccessEntry.entries_intercalate]

/-- The line changes no decision, whatever stands before and after it and whoever is who. -/
def IsSpare (line : List Char) : Prop :=
  ∀ (names : NameSource) (before after : List (List Char)) (visitor : Visitor),
    (ofText (ofLines (before ++ line :: after)) names).1.admits visitor
      = (ofText (ofLines (before ++ after)) names).1.admits visitor

/-- A line that rejects somebody keeps him out of a list that would let him in. -/
theorem IsSpare.not_rejects {line : List Char} (hSpare : IsSpare line) {entry : AccessEntry}
    (hEntry : entry ∈ AccessEntry.entries line) (name : String) : ¬ entry.Rejects name := by
  -- A list that names a character lets that character in, by whatever name.
  have hWithout : (ofText (ofLines ([['a']] ++ [])) AccessEntry.oneForAll).1.admits ⟨name, 0, none⟩
      = true := by
    have hPlayer : ([['a']] ++ []).flatMap AccessEntry.entries = [.player "a"] := by decide +kernel
    rw [admits_ofLines_iff, hPlayer]
    refine ⟨fun entry hEntry => ?_, .player "a", List.mem_singleton_self _, rfl⟩
    rw [List.mem_singleton.1 hEntry]
    exact id
  rw [← hSpare AccessEntry.oneForAll [['a']] [], admits_ofLines_iff] at hWithout
  exact hWithout.unrejected entry (by simp [hEntry])

/-- **A line changes nothing, wherever it stands, exactly if its entries say nothing.** -/
theorem isSpare_iff (line : List Char) :
    IsSpare line ↔ ∀ entry ∈ AccessEntry.entries line, entry.IsSilent := by
  constructor
  · intro hSpare entry hEntry
    refine ⟨hSpare.not_rejects hEntry, fun names visitor hLetsIn => ?_⟩
    -- Without the line nobody would be let in.
    have hWith : (ofText (ofLines ([] ++ line :: [])) names).1.admits visitor = true := by
      rw [admits_ofLines_iff]
      refine ⟨fun other hOther => ?_, entry, by simp [hEntry], hLetsIn⟩
      exact hSpare.not_rejects (by simpa using hOther) visitor.name
    rw [hSpare names [] [], admits_ofLines_iff] at hWith
    obtain ⟨other, hOther, -⟩ := hWith.letsIn
    have hNone : ([] ++ [] : List (List Char)).flatMap AccessEntry.entries = [] := rfl
    rw [hNone] at hOther
    cases hOther
  · intro hSilent names before after visitor
    rw [Bool.eq_iff_iff, admits_ofLines_iff, admits_ofLines_iff]
    refine AccessEntry.admit_iff_of_silent (fun entry hEntry => ?_) fun entry hEntry => ?_
    · rw [List.flatMap_append] at hEntry ⊢
      rw [List.flatMap_cons]
      obtain hBefore | hAfter := List.mem_append.1 hEntry
      · exact List.mem_append_left _ hBefore
      · exact List.mem_append_right _ (List.mem_append_right _ hAfter)
    · rw [List.flatMap_append, List.flatMap_cons] at hEntry
      rw [List.flatMap_append]
      obtain hBefore | hRest := List.mem_append.1 hEntry
      · exact .inl (List.mem_append_left _ hBefore)
      · obtain hLine | hAfter := List.mem_append.1 hRest
        · exact .inr (hSilent entry hLine)
        · exact .inl (List.mem_append_right _ hAfter)

/-- **A line with a remark counts for what stands behind its first comma**, whatever stands before
it: all decisions are the same as if nothing else stood in the line.  The line changes nothing
exactly if no entry stands behind the comma, a bare `!` apart. -/
theorem remark_counts_behind_comma {line : List Char} (hRemark : AccessEntry.IsRemark line) :
    (∀ (names : NameSource) (before after : List (List Char)) (visitor : Visitor),
      (ofText (ofLines (before ++ line :: after)) names).1.admits visitor
        = (ofText (ofLines (before ++ AccessEntry.behindComma line :: after)) names).1.admits visitor)
      ∧ (IsSpare line
        ↔ ∀ entry ∈ AccessEntry.entries (AccessEntry.behindComma line), entry = .expression "!") := by
  have hLine := AccessEntry.entries_of_remark hRemark
  constructor
  · intro names before after visitor
    rw [Bool.eq_iff_iff, admits_ofLines_iff, admits_ofLines_iff]
    simp only [List.flatMap_append, List.flatMap_cons, hLine]
  · rw [isSpare_iff, hLine]
    refine forall₂_congr fun entry hEntry => ?_
    obtain ⟨piece, hEntry⟩ := AccessEntry.exists_isEntry hEntry
    exact AccessEntry.isSilent_iff hEntry

/-- A remark about friends lets one of them in, and one about nobody changes nothing. -/
theorem remark_counts_behind_comma_friends :
    AccessEntry.IsRemark "# friends, Eremo".toList
      ∧ (ofText (ofLines ["Tom Riddle".toList, "# friends, Eremo".toList]) townNames).1.admits
          ⟨"Eremo", 10, none⟩
        = (ofText (ofLines ["Tom Riddle".toList, " Eremo".toList]) townNames).1.admits
          ⟨"Eremo", 10, none⟩
      ∧ AccessEntry.IsRemark "# friends".toList
      ∧ IsSpare "# friends".toList := by
  have hFriends : AccessEntry.IsRemark "# friends, Eremo".toList := by decide +kernel
  have hNobody : AccessEntry.IsRemark "# friends".toList := by decide +kernel
  have hBehind : AccessEntry.behindComma "# friends, Eremo".toList = " Eremo".toList := by
    decide +kernel
  refine ⟨hFriends, ?_, hNobody, ?_⟩
  · rw [← hBehind]
    exact (remark_counts_behind_comma hFriends).1 townNames ["Tom Riddle".toList] [] _
  · exact (remark_counts_behind_comma hNobody).2.2 (by decide +kernel)

/-- Eremo gets in by a remark, and not by the same text without the line. -/
theorem remark_lets_eremo_in :
    AccessEntry.IsRemark "# friends, Eremo".toList
      ∧ (ofText (ofLines ["Tom Riddle".toList, "# friends, Eremo".toList]) townNames).1.admits
        ⟨"Eremo", 10, none⟩ = true
      ∧ (ofText (ofLines ["Tom Riddle".toList]) townNames).1.admits ⟨"Eremo", 10, none⟩ = false := by
  decide +kernel

end AccessList

end Homestead

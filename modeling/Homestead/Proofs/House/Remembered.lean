/-
  Homestead.Proofs.House.Remembered
  ─────────────────────────────────
  **WHAT A MEMORY OF NAMES GIVES AWAY.**

  The memory in front of a name source files its answers under lower-case
  names, so it takes two names with one lower-case form for the same name.
  A table does so too, and there the memory cannot be seen.  An archive
  tells more names apart, and there a name may get the answer that another
  name got before it.

  Main results:
    * `Backed.resolve` — every answer is one that the source gives;
    * `transparent_iff_folds` — which sources the memory cannot be seen before;
    * `answers_from_memory` — tables and archives, query by query.
-/
import Mathlib.Data.List.Find
import Homestead.Archive.Tables
import Homestead.House.AccessList
import Homestead.House.CachedNames
import Homestead.Proofs.Text.Plain

namespace Homestead

/-! ## §1. Names that are looked up one after another. -/

/-- A name to look up, and what it may name. -/
abbrev Query : Type :=
  NameKind × String

/-- Looks names up one after another. -/
def Resolver.askAll {ρ : Type} [Resolver ρ] : ρ → List Query → List (Option UInt32) × ρ
  | names, [] => ([], names)
  | names, q :: qs =>
    let (answer, names) := Resolver.resolve names q.1 q.2
    let (answers, names) := askAll names qs
    (answer :: answers, names)

namespace NameSource

/-- A source of names answers each query by itself and stays as it is. -/
theorem askAll_eq (names : NameSource) (qs : List Query) :
    Resolver.askAll names qs = (qs.map fun q => names.find? q.1 q.2, names) := by
  induction qs with
  | nil => rfl
  | cons q qs ih =>
    show (names.find? q.1 q.2 :: (Resolver.askAll names qs).1, (Resolver.askAll names qs).2) = _
    rw [ih]
    rfl

/-- Names with the same lower-case form are the same to the source. -/
def Folds (names : NameSource) : Prop :=
  ∀ kind n m, Text.lowercase n = Text.lowercase m → names.find? kind n = names.find? kind m

/-- A memory in front of the source cannot be seen: not in the answers to queries, whatever its
size, and not in an access list that is read after them. -/
structure Transparent (names : NameSource) : Prop where
  /-- The answers are those of the source. -/
  answers_eq : ∀ (capacity : Nat) (qs : List Query),
    (Resolver.askAll (CachedNames.ofSource names capacity) qs).1 = (Resolver.askAll names qs).1
  /-- What a list grants does not depend on the queries before. -/
  list_eq : ∀ (capacity : Nat) (qs : List Query) (text : String),
    (AccessList.ofText text (Resolver.askAll (CachedNames.ofSource names capacity) qs).2).1
      = (AccessList.ofText text names).1

end NameSource

/-! ## §2. One lookup. -/

namespace RecentAnswers

/-- An answer that is given from memory is remembered. -/
theorem mem_of_answer? {recent : RecentAnswers} {key : String} {answer : Option UInt32}
    (h : recent.answer? key = some answer) : (key, answer) ∈ recent := by
  obtain ⟨entry, hFind, rfl⟩ := Option.map_eq_some_iff.1 h
  have hKey : entry.1 = key := by simpa using List.find?_some hFind
  rw [← hKey]
  exact List.mem_of_find?_eq_some hFind

/-- What is remembered is the newest answer or was remembered before. -/
theorem mem_of_mem_remember {recent : RecentAnswers} {capacity : Nat} {key : String}
    {answer : Option UInt32} {entry : String × Option UInt32}
    (h : entry ∈ recent.remember capacity key answer) : entry = (key, answer) ∨ entry ∈ recent := by
  have hCons := List.mem_of_mem_take h
  rw [List.mem_cons] at hCons
  exact hCons.imp_right fun h => (List.mem_filter.1 h).1

end RecentAnswers

namespace CachedNames

/-- Every answer in the memory is the one that the source gives to a name, among those asked for,
with the lower-case form that it is filed under. -/
def Backed (c : CachedNames NameSource) (asked : List Query) : Prop :=
  ∀ kind, ∀ entry ∈ c.recent kind, ∃ name, (kind, name) ∈ asked
    ∧ Text.lowercase name = entry.1 ∧ c.inner.find? kind name = entry.2

/-- An empty memory is backed. -/
theorem backed_ofSource (names : NameSource) (capacity : Nat) :
    (ofSource names capacity).Backed [] := by
  intro kind entry hEntry
  cases kind <;> cases hEntry

variable {c : CachedNames NameSource} {asked : List Query}

/-- A name that is remembered is answered from memory, and becomes the one that was used last. -/
theorem resolve_of_some {kind : NameKind} {name : String} {answer : Option UInt32}
    (h : (c.recent kind).answer? (Text.lowercase name) = some answer) :
    c.resolve kind name = (answer,
      { c.remember kind (Text.lowercase name) answer with
        hits := (c.remember kind (Text.lowercase name) answer).hits + 1 }) := by
  unfold resolve
  dsimp only
  rw [h]

/-- A name that is not remembered is asked for, and the answer is remembered. -/
theorem resolve_of_none {kind : NameKind} {name : String}
    (h : (c.recent kind).answer? (Text.lowercase name) = none) :
    c.resolve kind name = (c.inner.find? kind name,
      { c.remember kind (Text.lowercase name) (c.inner.find? kind name) with
        inner := c.inner
        misses := (c.remember kind (Text.lowercase name) (c.inner.find? kind name)).misses + 1 }) := by
  unfold resolve
  dsimp only
  rw [h]
  rfl

/-- Remembering leaves the source. -/
theorem inner_remember (kind : NameKind) (key : String) (answer : Option UInt32) :
    (c.remember kind key answer).inner = c.inner := by
  cases kind <;> rfl

/-- An answer is remembered among the names of its kind. -/
theorem mem_recent_remember {kind kind' : NameKind} {key : String} {answer : Option UInt32}
    {entry : String × Option UInt32} (h : entry ∈ (c.remember kind key answer).recent kind') :
    (kind' = kind ∧ entry = (key, answer)) ∨ entry ∈ c.recent kind' := by
  cases kind <;> cases kind'
  case player.player => exact (RecentAnswers.mem_of_mem_remember h).imp_left fun hNew => ⟨rfl, hNew⟩
  case guild.guild => exact (RecentAnswers.mem_of_mem_remember h).imp_left fun hNew => ⟨rfl, hNew⟩
  all_goals exact .inr h

/-- Resolving a name leaves the source. -/
theorem inner_resolve (kind : NameKind) (name : String) :
    (c.resolve kind name).2.inner = c.inner := by
  cases h : (c.recent kind).answer? (Text.lowercase name) with
  | some answer =>
    rw [resolve_of_some h]
    exact inner_remember kind _ answer
  | none => rw [resolve_of_none h]

/-- After a lookup the memory holds the answer to it, and otherwise what it held before. -/
theorem mem_recent_resolve {kind kind' : NameKind} {name : String}
    {entry : String × Option UInt32} (h : entry ∈ (c.resolve kind name).2.recent kind') :
    (kind' = kind ∧ entry = (Text.lowercase name, (c.resolve kind name).1))
      ∨ entry ∈ c.recent kind' := by
  cases hRecent : (c.recent kind).answer? (Text.lowercase name) with
  | some answer =>
    rw [resolve_of_some hRecent] at h ⊢
    exact mem_recent_remember (c := c) (by cases kind' <;> exact h)
  | none =>
    rw [resolve_of_none hRecent] at h ⊢
    exact mem_recent_remember (c := c) (by cases kind' <;> exact h)

/-- **Every answer is one that the source gives**, to this name or to an earlier one with the same
lower-case form. -/
theorem Backed.resolve (h : c.Backed asked) (kind : NameKind) (name : String) :
    (∃ earlier, (kind, earlier) ∈ asked ++ [(kind, name)]
      ∧ Text.lowercase earlier = Text.lowercase name
      ∧ (c.resolve kind name).1 = c.inner.find? kind earlier)
    ∧ (c.resolve kind name).2.Backed (asked ++ [(kind, name)]) := by
  have hAnswer : ∃ earlier, (kind, earlier) ∈ asked ++ [(kind, name)]
      ∧ Text.lowercase earlier = Text.lowercase name
      ∧ (c.resolve kind name).1 = c.inner.find? kind earlier := by
    cases hRecent : (c.recent kind).answer? (Text.lowercase name) with
    | some answer =>
      obtain ⟨earlier, hAsked, hFold, hFind⟩ := h kind _ (RecentAnswers.mem_of_answer? hRecent)
      refine ⟨earlier, List.mem_append_left _ hAsked, hFold, ?_⟩
      rw [hFind, resolve_of_some hRecent]
    | none =>
      refine ⟨name, List.mem_append_right _ List.mem_cons_self, rfl, ?_⟩
      rw [resolve_of_none hRecent]
  refine ⟨hAnswer, ?_⟩
  intro kind' entry hEntry
  rw [inner_resolve]
  -- What is remembered afterwards is this answer, or was backed before.
  obtain ⟨rfl, rfl⟩ | hOld := mem_recent_resolve hEntry
  · obtain ⟨earlier, hAsked, hFold, hFind⟩ := hAnswer
    exact ⟨earlier, hAsked, hFold, hFind.symm⟩
  · obtain ⟨earlier, hAsked, hFold, hFind⟩ := h kind' entry hOld
    exact ⟨earlier, List.mem_append_left _ hAsked, hFold, hFind⟩

/-! ## §3. Many lookups. -/

/-- **Every answer in a run is one that the source gives** to a name asked for up to then. -/
theorem Backed.askAll (h : c.Backed asked) (qs : List Query) :
    (∀ i q, qs[i]? = some q → ∃ earlier, (q.1, earlier) ∈ asked ++ qs.take (i + 1)
      ∧ Text.lowercase earlier = Text.lowercase q.2
      ∧ (Resolver.askAll c qs).1[i]? = some (c.inner.find? q.1 earlier))
    ∧ (Resolver.askAll c qs).2.Backed (asked ++ qs)
    ∧ (Resolver.askAll c qs).2.inner = c.inner := by
  induction qs generalizing c asked with
  | nil =>
    refine ⟨?_, ?_, rfl⟩
    · intro i q hNone
      cases hNone
    · rw [List.append_nil]
      exact h
  | cons first qs ih =>
    obtain ⟨hFirst, hThen⟩ := h.resolve first.1 first.2
    obtain ⟨hRest, hBacked, hInner⟩ := ih hThen
    rw [inner_resolve] at hInner
    -- The first answer is backed by what was asked before, and the others by the first one too.
    refine ⟨?_, ?_, hInner⟩
    · intro i q hq
      cases i with
      | zero =>
        obtain rfl := Option.some_inj.1 hq
        obtain ⟨earlier, hAsked, hFold, hAnswer⟩ := hFirst
        exact ⟨earlier, hAsked, hFold, congrArg some hAnswer⟩
      | succ i =>
        obtain ⟨earlier, hAsked, hFold, hAnswer⟩ := hRest i q hq
        rw [inner_resolve] at hAnswer
        rw [List.append_assoc] at hAsked
        exact ⟨earlier, hAsked, hFold, hAnswer⟩
    · rw [List.append_assoc] at hBacked
      exact hBacked

/-! ## §4. Sources that the memory cannot be seen before. -/

/-- A name gets the answer of the source, whatever the memory holds. -/
theorem Backed.resolve_eq (h : c.Backed asked) (hFolds : c.inner.Folds) (kind : NameKind)
    (name : String) : (c.resolve kind name).1 = c.inner.find? kind name := by
  obtain ⟨⟨earlier, _, hFold, hAnswer⟩, _⟩ := h.resolve kind name
  rw [hAnswer]
  exact hFolds kind earlier name hFold

/-- From a memory that is backed, a source that folds letters is heard unchanged. -/
theorem Backed.askAll_eq (h : c.Backed asked) (hFolds : c.inner.Folds) (qs : List Query) :
    (Resolver.askAll c qs).1 = (Resolver.askAll c.inner qs).1 := by
  induction qs generalizing c asked with
  | nil => rfl
  | cons q qs ih =>
    have hInner := inner_resolve (c := c) q.1 q.2
    have hRest := ih (h.resolve q.1 q.2).2 (by rwa [hInner])
    rw [hInner] at hRest
    show (c.resolve q.1 q.2).1 :: (Resolver.askAll (c.resolve q.1 q.2).2 qs).1
      = c.inner.find? q.1 q.2 :: (Resolver.askAll c.inner qs).1
    rw [h.resolve_eq hFolds, hRest]

end CachedNames

namespace AccessList

variable {ρ σ : Type} [Resolver ρ] [Resolver σ]

/-- What an entry adds depends on the answers to names only. -/
theorem addEntry_congr {a : ρ} {b : σ}
    (h : ∀ kind name, (Resolver.resolve a kind name).1 = (Resolver.resolve b kind name).1)
    (l : AccessList) (entry : AccessEntry) :
    (addEntry (l, a) entry).1 = (addEntry (l, b) entry).1 := by
  cases entry with
  | guild name =>
    have hAnswer := h .guild name
    show (l.addGuild name a).2.1 = (l.addGuild name b).2.1
    unfold addGuild
    -- The answer alone is used; what the sources have become is not.
    revert hAnswer
    obtain ⟨answer, a'⟩ := Resolver.resolve a NameKind.guild name
    obtain ⟨answer', b'⟩ := Resolver.resolve b NameKind.guild name
    rintro (rfl : answer = answer')
    cases answer <;> rfl
  | player name =>
    have hAnswer := h .player name
    show (l.addPlayer name a).2.1 = (l.addPlayer name b).2.1
    unfold addPlayer
    revert hAnswer
    obtain ⟨answer, a'⟩ := Resolver.resolve a NameKind.player name
    obtain ⟨answer', b'⟩ := Resolver.resolve b NameKind.player name
    rintro (rfl : answer = answer')
    cases answer <;> rfl
  | expression text => rfl

/-- An entry looks up at most one name. -/
theorem names_addEntry (l : AccessList) (a : ρ) (entry : AccessEntry) :
    (addEntry (l, a) entry).2 = a
      ∨ ∃ kind name, (addEntry (l, a) entry).2 = (Resolver.resolve a kind name).2 := by
  cases entry with
  | guild name =>
    refine .inr ⟨.guild, name, ?_⟩
    show (l.addGuild name a).2.2 = _
    unfold addGuild
    obtain ⟨answer, a'⟩ := Resolver.resolve a NameKind.guild name
    -- Found or not, the source is the one that has been asked.
    cases answer <;> rfl
  | player name =>
    refine .inr ⟨.player, name, ?_⟩
    show (l.addPlayer name a).2.2 = _
    unfold addPlayer
    obtain ⟨answer, a'⟩ := Resolver.resolve a NameKind.player name
    cases answer <;> rfl
  | expression text => exact .inl rfl

end AccessList

namespace CachedNames

variable {c : CachedNames NameSource} {asked : List Query}

/-- Entries add what they add without the memory. -/
theorem Backed.foldl_addEntry (h : c.Backed asked) (hFolds : c.inner.Folds)
    (entries : List AccessEntry) (l : AccessList) :
    (entries.foldl AccessList.addEntry (l, c)).1
      = (entries.foldl AccessList.addEntry (l, c.inner)).1 := by
  induction entries generalizing c asked l with
  | nil => rfl
  | cons entry entries ih =>
    have hList : (AccessList.addEntry (l, c) entry).1 = (AccessList.addEntry (l, c.inner) entry).1 :=
      AccessList.addEntry_congr (h.resolve_eq hFolds) l entry
    have hSource : (AccessList.addEntry (l, c.inner) entry).2 = c.inner := by
      obtain hSame | ⟨kind, name, hSame⟩ := AccessList.names_addEntry l c.inner entry
      · exact hSame
      · exact hSame
    -- The memory stays backed, if with more queries.
    have hNames : (AccessList.addEntry (l, c) entry).2.inner = c.inner
        ∧ ∃ asked', (AccessList.addEntry (l, c) entry).2.Backed asked' := by
      obtain hSame | ⟨kind, name, hSame⟩ := AccessList.names_addEntry l c entry
      · rw [hSame]
        exact ⟨rfl, asked, h⟩
      · rw [hSame]
        exact ⟨inner_resolve kind name, _, (h.resolve kind name).2⟩
    rw [List.foldl_cons, List.foldl_cons]
    revert hList hSource hNames
    obtain ⟨l₁, c₁⟩ := AccessList.addEntry (l, c) entry
    obtain ⟨l₂, names⟩ := AccessList.addEntry (l, c.inner) entry
    rintro (rfl : l₁ = l₂) (rfl : names = c.inner) ⟨(hInner : c₁.inner = c.inner), asked', hBacked⟩
    rw [ih hBacked (by rwa [hInner]), hInner]

/-- A list that is read with a memory that is backed is the one that is read without it. -/
theorem Backed.ofText_eq (h : c.Backed asked) (hFolds : c.inner.Folds) (text : String) :
    (AccessList.ofText text c).1 = (AccessList.ofText text c.inner).1 :=
  h.foldl_addEntry hFolds (AccessEntry.ofText text) { text }

end CachedNames

namespace NameSource

/-- **The memory cannot be seen before a source just when names with one lower-case form are the
same to the source.** -/
theorem transparent_iff_folds (names : NameSource) : names.Transparent ↔ names.Folds := by
  constructor
  · intro h kind n m hFold
    have hFound : (((CachedNames.ofSource names 1).resolve kind n).2.recent kind).answer?
        (Text.lowercase m) = some (names.find? kind n) := by
      have hRecent : ((CachedNames.ofSource names 1).resolve kind n).2.recent kind
          = [(Text.lowercase n, names.find? kind n)] := by
        cases kind <;> rfl
      rw [hRecent, hFold, RecentAnswers.answer?]
      simp
    -- The second name gets the answer that the first one got.
    have hAnswers := congrArg (·[1]?) (h.answers_eq 1 [(kind, n), (kind, m)])
    rw [askAll_eq] at hAnswers
    have hSecond : some (((CachedNames.ofSource names 1).resolve kind n).2.resolve kind m).1
        = some (names.find? kind m) := hAnswers
    rw [CachedNames.resolve_of_some hFound] at hSecond
    exact Option.some_inj.1 hSecond
  · intro hFolds
    have hBacked := CachedNames.backed_ofSource names
    constructor
    · intro capacity qs
      exact (hBacked capacity).askAll_eq hFolds qs
    · intro capacity qs text
      obtain ⟨_, hAfter, hInner⟩ := (hBacked capacity).askAll qs
      have hSource : (Resolver.askAll (CachedNames.ofSource names capacity) qs).2.inner = names :=
        hInner
      have hSame := hAfter.ofText_eq (by rwa [hSource]) text
      rw [hSource] at hSame
      exact hSame

/-- **The memory cannot be seen before a table.** -/
theorem folds_ofRows (players guilds : List (UInt32 × String)) : (ofRows players guilds).Folds := by
  intro kind n m hFold
  cases kind
  · show (keyed players).lookup (Text.lowercase n) = (keyed players).lookup (Text.lowercase m)
    rw [hFold]
  · show (keyed guilds).lookup (Text.lowercase n) = (keyed guilds).lookup (Text.lowercase m)
    rw [hFold]

end NameSource

/-! ## §5. Archives. -/

namespace Tables

open Text

/-- A plain text has no octet 0 that it could be cut at. -/
theorem takeWhile_of_plain {cs : List Char} (h : ∀ c ∈ cs, IsPlain c) :
    cs.takeWhile (· != '\x00') = cs := by
  induction cs with
  | nil => rfl
  | cons c cs ih =>
    have hc : (c != '\x00') = true := bne_iff_ne.2 (h c List.mem_cons_self).2.2.2
    rw [List.takeWhile_cons, if_pos hc, ih fun d hd => h d (List.mem_cons_of_mem c hd)]

/-- A plain name has the key of a name that differs in the case of ASCII letters only. -/
theorem nameKey_plain {s : String} (h : Plain s) :
    nameKey s = (lowerAscii s, (lowerAscii s).toList.length) := by
  have hLength : (lowerAscii s).toList.length = s.utf8ByteSize := by
    rw [toList_lowerAscii, List.length_map, utf8ByteSize_eq, sum_utf8Size_ascii h.ascii]
  rw [nameKey, takeWhile_of_plain (h : ∀ c ∈ s.toList, IsPlain c), String.ofList_toList, hLength]

/-- A name with the key of a plain one is plain. -/
theorem plain_of_nameKey {s n : String} (hs : Plain s) (h : nameKey s = nameKey n) : Plain n := by
  rw [nameKey_plain hs] at h
  obtain ⟨hText, hSize⟩ := Prod.mk.inj h
  let front := n.toList.takeWhile (· != '\x00')
  let back := n.toList.dropWhile (· != '\x00')
  have hParts : n.toList = front ++ back := List.takeWhile_append_dropWhile.symm
  have hForm : (lowerAscii s).toList = front.map lowerAsciiChar := by
    rw [hText, toList_lowerAscii, String.toList_ofList]
  have hFront : ∀ c ∈ front, IsPlain c := by
    intro c hc
    have hPlain : IsPlain (lowerAsciiChar c) := by
      apply plain_lowerAscii hs
      rw [hForm]
      exact List.mem_map_of_mem hc
    by_cases hAscii : c.toNat < 128
    · exact (isPlain_lowerAsciiChar c hAscii).1 hPlain
    · rwa [lowerAsciiChar_of_not_ascii (Nat.le_of_not_lt hAscii)] at hPlain
  -- The octets are used up by what stands before a NUL.
  have hBack : back = [] := by
    have hFrontSize := sum_utf8Size_ascii fun c hc => (hFront c hc).1
    have hBackSize := length_le_sum_utf8Size back
    rw [utf8ByteSize_eq, hParts, List.map_append, List.sum_append, hFrontSize, hForm,
      List.length_map] at hSize
    exact List.eq_nil_of_length_eq_zero (by omega)
  intro c hc
  rw [hParts, hBack, List.append_nil] at hc
  exact hFront c hc

/-- The rows of a kind. -/
def namesOf (t : Tables) : NameKind → List (Int × String)
  | .player => t.players
  | .guild => t.guilds

/-- The keys of names with one lower-case form are the same to a plain name. -/
theorem nameKey_eq_of_lowercase_eq {s n m : String} (hs : Plain s) (hKey : nameKey s = nameKey n)
    (hFold : lowercase n = lowercase m) : nameKey s = nameKey m := by
  have hn := plain_of_nameKey hs hKey
  obtain ⟨hm, hSame⟩ := lowerAscii_eq_of_lowercase_eq hn hFold
  rw [hKey, nameKey_plain hn, nameKey_plain hm, hSame]

/-- **The memory cannot be seen before an archive of plain names.** -/
theorem folds_names {t : Tables} (h : ∀ kind, ∀ row ∈ t.namesOf kind, Plain row.2) :
    t.names.Folds := by
  -- Plain names fold as the archive compares them, so equal forms find the same row.
  have hRows : ∀ kind n m, lowercase n = lowercase m →
      findName (t.namesOf kind) n = findName (t.namesOf kind) m := by
    intro kind n m hFold
    have hFind : (t.namesOf kind).find? (fun row => nameKey row.2 == nameKey n)
        = (t.namesOf kind).find? (fun row => nameKey row.2 == nameKey m) := by
      refine List.find?_congr ?_
      intro row hRow
      have hPlain := h kind row hRow
      rw [Bool.eq_iff_iff, beq_iff_eq, beq_iff_eq]
      exact ⟨fun hKey => nameKey_eq_of_lowercase_eq hPlain hKey hFold,
        fun hKey => nameKey_eq_of_lowercase_eq hPlain hKey hFold.symm⟩
    unfold findName
    dsimp only
    rw [hFind]
  intro kind n m hFold
  cases kind
  · exact hRows .player n m hFold
  · exact hRows .guild n m hFold

end Tables

/-! ## §6. Tables and archives. -/

/-- **What the memory gives away.**  Before a table it cannot be seen.  Before an archive it cannot
be seen just when names with one lower-case form are the same to the archive, as they are when all
stored names are plain.  Whatever the archive, every answer is one that it gives to this name or to
an earlier one of the same kind with the same lower-case form. -/
theorem answers_from_memory (t : Tables) :
    (∀ players guilds, (NameSource.ofRows players guilds).Transparent)
      ∧ (t.names.Transparent ↔ t.names.Folds)
      ∧ ((∀ kind, ∀ row ∈ t.namesOf kind, Text.Plain row.2) → t.names.Transparent)
      ∧ ∀ (capacity : Nat) (qs : List Query) (i : Nat) (q : Query), qs[i]? = some q →
        ∃ earlier, (q.1, earlier) ∈ qs.take (i + 1)
          ∧ Text.lowercase earlier = Text.lowercase q.2
          ∧ (Resolver.askAll (CachedNames.ofSource t.names capacity) qs).1[i]?
            = some (t.names.find? q.1 earlier) := by
  refine ⟨?_, t.names.transparent_iff_folds, ?_, ?_⟩
  · intro players guilds
    exact (NameSource.transparent_iff_folds _).2 (NameSource.folds_ofRows players guilds)
  · intro hPlain
    exact t.names.transparent_iff_folds.2 (Tables.folds_names hPlain)
  · intro capacity qs
    exact ((CachedNames.backed_ofSource t.names capacity).askAll qs).1

/-- An archive of one character with a plain name. -/
def plainArchive : Tables where
  players := [(7, "Eremo")]

/-- The memory cannot be seen before that archive. -/
theorem answers_from_memory_plain :
    (∀ kind, ∀ row ∈ plainArchive.namesOf kind, Text.Plain row.2)
      ∧ plainArchive.names.Transparent := by
  -- The one name of the archive is checked, character by character.
  have hAll : "Eremo".toList.all (fun c => decide (Text.IsPlain c)) = true := by
    decide +kernel
  have hName : ∀ c ∈ "Eremo".toList, Text.IsPlain c := by
    intro c hc
    exact of_decide_eq_true (List.all_eq_true.1 hAll c hc)
  have hPlain : ∀ kind, ∀ row ∈ plainArchive.namesOf kind, Text.Plain row.2 := by
    intro kind row hRow
    cases kind with
    | player =>
      obtain rfl : row = (7, "Eremo") := List.mem_singleton.1 hRow
      exact hName
    | guild => cases hRow
  obtain ⟨_, _, hTransparent, _⟩ := answers_from_memory plainArchive
  exact ⟨hPlain, hTransparent hPlain⟩

/-- An archive of one character, whose name begins with an accented letter. -/
def accented : Tables where
  players := [(7, "Éremo")]

/-- The name with a small letter, which nobody has, and then the name of the character. -/
def accentedQueries : List Query :=
  [(.player, "éremo"), (.player, "Éremo")]

/-- The character is not found once the other name has been asked for. -/
theorem accented_not_transparent :
    (Resolver.askAll accented.names accentedQueries).1 = [none, some 7]
      ∧ (Resolver.askAll (CachedNames.ofSource accented.names 4) accentedQueries).1 = [none, none]
      ∧ ¬ accented.names.Transparent := by
  have hSource : (Resolver.askAll accented.names accentedQueries).1 = [none, some 7] := by
    decide +kernel
  have hMemory : (Resolver.askAll (CachedNames.ofSource accented.names 4) accentedQueries).1
      = [none, none] := by
    decide +kernel
  refine ⟨hSource, hMemory, ?_⟩
  intro h
  have hSame := h.answers_eq 4 accentedQueries
  rw [hSource, hMemory] at hSame
  exact absurd hSame (by decide)

end Homestead

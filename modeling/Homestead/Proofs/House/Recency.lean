/-
  Homestead.Proofs.House.Recency
  ──────────────────────────────
  **WHICH NAMES ARE STILL IN MEMORY.**

  The memory in front of a name source holds the names that were asked for
  last, as many of a kind as it has room for.  So whether it answers a
  query does not depend on the source or on any answer: it does just if
  the name has been asked for before, and since then fewer other names of
  its kind than the memory has room for.

  A memory that was cut to its room at every step holds what a memory
  without bounds would hold in front; this is what carries the induction.

  Main results:
    * `mem_take_byLastUse_iff` — the names that were used last;
    * `Served`, `served_resolve` — what one query does to a memory;
    * `Recalls.resolve` — the memory holds the latest names;
    * `hit_iff_reuses` — which queries the memory answers.
-/
import Homestead.Proofs.House.Remembered
import Mathlib.Data.Bool.Count
import Mathlib.Data.Finset.Card

namespace Homestead

/-! ## §1. Names by their last use. -/

/-- The names in a list of uses, each once, the one that was used last in front. -/
def byLastUse (uses : List String) : List String :=
  uses.foldl (fun recent key => key :: recent.filter (· ≠ key)) []

/-- A key that is used comes to the front, and leaves where it was. -/
theorem byLastUse_concat (uses : List String) (key : String) :
    byLastUse (uses ++ [key]) = key :: (byLastUse uses).filter (· ≠ key) :=
  List.foldl_append

/-- The keys by last use are the keys that were used. -/
theorem mem_byLastUse {uses : List String} {key : String} :
    key ∈ byLastUse uses ↔ key ∈ uses := by
  induction uses using List.reverseRecOn with
  | nil => rfl
  | append_singleton uses last ih =>
    rw [byLastUse_concat, List.mem_cons, List.mem_filter, ih, List.mem_append, List.mem_singleton]
    by_cases h : key = last <;> simp [h]

/-- A key stands at one place only. -/
theorem nodup_byLastUse (uses : List String) : (byLastUse uses).Nodup := by
  induction uses using List.reverseRecOn with
  | nil => exact List.nodup_nil
  | append_singleton uses last ih =>
    rw [byLastUse_concat, List.nodup_cons]
    refine ⟨?_, ih.filter _⟩
    intro hMem
    simpa using (List.mem_filter.1 hMem).2

/-- There are as many places as different keys. -/
theorem length_byLastUse (uses : List String) :
    (byLastUse uses).length = uses.toFinset.card := by
  rw [← List.toFinset_card_of_nodup (nodup_byLastUse uses)]
  congr 1
  ext key
  rw [List.mem_toFinset, List.mem_toFinset, mem_byLastUse]

/-- Later uses come in front, and earlier ones count for names that were not used later. -/
theorem byLastUse_append (early late : List String) :
    byLastUse (early ++ late) = byLastUse late ++ (byLastUse early).filter (· ∉ late) := by
  induction late using List.reverseRecOn with
  | nil => simp [byLastUse]
  | append_singleton late last ih =>
    rw [← List.append_assoc, byLastUse_concat, ih, byLastUse_concat, List.filter_append,
      List.filter_filter, List.cons_append]
    congr 2
    refine List.filter_congr ?_
    intro key _
    simp [and_comm]

/-- **The names used last** are those after whose last use fewer other names were used. -/
theorem mem_take_byLastUse_iff {uses : List String} {key : String} {room : Nat} :
    key ∈ (byLastUse uses).take room
      ↔ ∃ early late, uses = early ++ key :: late ∧ key ∉ late ∧ late.toFinset.card < room := by
  -- What stands in front of a name are the names used after it.
  have hSplit : ∀ early late : List String, key ∉ late →
      (key ∈ (byLastUse (early ++ key :: late)).take room ↔ late.toFinset.card < room) := by
    intro early late hNot
    have hFront : key ∉ byLastUse late := fun h => hNot (mem_byLastUse.1 h)
    rw [← List.singleton_append, ← List.append_assoc, byLastUse_append, byLastUse_concat,
      List.filter_cons_of_pos (by simpa using hNot), ← length_byLastUse, List.take_append,
      List.mem_append]
    constructor
    · rintro (hMem | hMem)
      · exact absurd (List.mem_of_mem_take hMem) hFront
      · by_contra hLong
        rw [Nat.sub_eq_zero_of_le (Nat.not_lt.1 hLong)] at hMem
        cases hMem
    · intro hShort
      obtain ⟨n, hn⟩ := Nat.exists_eq_add_of_lt hShort
      rw [show room - (byLastUse late).length = n + 1 by omega]
      exact .inr List.mem_cons_self
  constructor
  · intro hMem
    have hUsed : key ∈ uses.reverse :=
      List.mem_reverse.2 (mem_byLastUse.1 (List.mem_of_mem_take hMem))
    obtain ⟨late, early, hUses, hNot⟩ := List.eq_append_cons_of_mem hUsed
    have hOrder : uses = early.reverse ++ key :: late.reverse := by
      rw [← List.reverse_reverse uses, hUses]
      simp
    have hLast : key ∉ late.reverse := by rwa [List.mem_reverse]
    exact ⟨_, _, hOrder, hLast, (hSplit _ _ hLast).1 (hOrder ▸ hMem)⟩
  · rintro ⟨early, late, rfl, hNot, hShort⟩
    exact (hSplit early late hNot).2 hShort

/-- A list that is cut to its room before a use is the same after it as one that is not. -/
theorem take_use_take {names : List String} (h : names.Nodup) (room : Nat) (key : String) :
    (key :: (names.take room).filter (· ≠ key)).take room
      = (key :: names.filter (· ≠ key)).take room := by
  have hCut : ∀ room, ((names.take (room + 1)).filter (· ≠ key)).take room
      = (names.filter (· ≠ key)).take room := by
    induction names with
    | nil => simp
    | cons name names ih =>
      intro room
      obtain ⟨hNew, hRest⟩ := List.nodup_cons.1 h
      rw [List.take_succ_cons]
      by_cases hKey : name = key
      · -- The name comes once, so nothing is taken out of what stands behind it.
        have hKept : ∀ other ∈ names, decide (other ≠ key) = true := by
          intro other hOther
          exact decide_eq_true fun hSame => hNew (by rwa [hKey, ← hSame])
        rw [List.filter_cons_of_neg (by simpa using hKey),
          List.filter_cons_of_neg (by simpa using hKey), List.filter_eq_self.2 hKept,
          List.filter_eq_self.2 fun other hOther => hKept other (List.mem_of_mem_take hOther),
          List.take_take, Nat.min_self]
      · rw [List.filter_cons_of_pos (by simpa using hKey),
          List.filter_cons_of_pos (by simpa using hKey)]
        cases room with
        | zero => rfl
        | succ room => rw [List.take_succ_cons, List.take_succ_cons, ih hRest]
  cases room with
  | zero => rfl
  | succ room => rw [List.take_succ_cons, List.take_succ_cons, hCut]

/-! ## §2. One query. -/

namespace RecentAnswers

/-- The names that there is an answer for, the latest first. -/
def names (recent : RecentAnswers) : List String :=
  recent.map (·.1)

/-- A key is answered exactly if it is among the names. -/
theorem isSome_answer?_iff {recent : RecentAnswers} {key : String} :
    (recent.answer? key).isSome = true ↔ key ∈ recent.names := by
  rw [answer?, Option.isSome_map, List.find?_isSome, names, List.mem_map]
  simp

/-- Remembering puts a key to the front and drops what exceeds the capacity. -/
theorem names_remember (recent : RecentAnswers) (capacity : Nat) (key : String)
    (answer : Option UInt32) : (recent.remember capacity key answer).names
      = (key :: recent.names.filter (· ≠ key)).take capacity := by
  unfold remember names
  rw [List.map_take, List.map_cons, List.filter_map]
  congr 3
  refine List.filter_congr ?_
  intro entry _
  exact decide_not.symm

end RecentAnswers

namespace CachedNames

variable {ρ : Type}

/-- Remembering a name moves the names of its kind, and not those of the other. -/
theorem names_recent_remember (c : CachedNames ρ) (kind kind' : NameKind) (key : String)
    (answer : Option UInt32) : ((c.remember kind key answer).recent kind').names
      = if kind' = kind then (key :: (c.recent kind).names.filter (· ≠ key)).take c.capacity
        else (c.recent kind').names := by
  cases kind <;> cases kind' <;>
    first | exact RecentAnswers.names_remember _ _ key answer | rfl

variable [Resolver ρ]

/-- What a query does to a memory: the name comes to the front of those of its kind, and the query
is counted as a hit if the name was there, and as a miss otherwise. -/
structure Served (c : CachedNames ρ) (kind : NameKind) (key : String) (c' : CachedNames ρ) :
    Prop where
  /-- The room is the same. -/
  capacity : c'.capacity = c.capacity
  /-- The name comes to the front, and nothing happens to names of the other kind. -/
  names : ∀ kind', (c'.recent kind').names
    = if kind' = kind then (key :: (c.recent kind).names.filter (· ≠ key)).take c.capacity
      else (c.recent kind').names
  /-- A name that was there is a hit. -/
  hits : c'.hits = if key ∈ (c.recent kind).names then c.hits + 1 else c.hits
  /-- A name that was not there is a miss. -/
  misses : c'.misses = if key ∈ (c.recent kind).names then c.misses else c.misses + 1

/-- **What a query does does not depend on the source.** -/
theorem served_resolve (c : CachedNames ρ) (kind : NameKind) (name : String) :
    c.Served kind (Text.lowercase name) (c.resolve kind name).2 := by
  have hNames := c.names_recent_remember kind
  unfold resolve
  dsimp only
  -- Remembered or asked for, the name comes to the front; only the counts differ.
  cases hAnswer : (c.recent kind).answer? (Text.lowercase name) with
  | some answer =>
    -- An answer that is remembered is one of a name on the list.
    have hThere : Text.lowercase name ∈ (c.recent kind).names :=
      RecentAnswers.isSome_answer?_iff.1 (by rw [hAnswer]; rfl)
    constructor
    case capacity => cases kind <;> rfl
    case names =>
      intro kind'
      rw [← hNames kind' _ answer]
      cases kind' <;> rfl
    case hits =>
      rw [if_pos hThere]
      cases kind <;> rfl
    case misses =>
      rw [if_pos hThere]
      cases kind <;> rfl
  | none =>
    have hNew : Text.lowercase name ∉ (c.recent kind).names := by
      intro hMem
      have hSome := RecentAnswers.isSome_answer?_iff.2 hMem
      rw [hAnswer] at hSome
      cases hSome
    dsimp only
    obtain ⟨answer, inner⟩ := Resolver.resolve c.inner kind name
    constructor
    case capacity => cases kind <;> rfl
    case names =>
      intro kind'
      rw [← hNames kind' _ answer]
      cases kind' <;> rfl
    case hits =>
      rw [if_neg hNew]
      cases kind <;> rfl
    case misses =>
      rw [if_neg hNew]
      cases kind <;> rfl

/-! ## §3. Many queries. -/

/-- Of each query whether it is a hit, which is what it raises the count of hits by. -/
def hitsOf : CachedNames ρ → List Query → List Bool
  | _, [] => []
  | c, q :: qs =>
    let after := (c.resolve q.1 q.2).2
    decide (c.hits < after.hits) :: hitsOf after qs

end CachedNames

/-- The lower-case names that the queries of a kind are about, in order. -/
def keysOf (kind : NameKind) (qs : List Query) : List String :=
  qs.filterMap fun q => if q.1 = kind then some (Text.lowercase q.2) else none

/-- The name of the query has been asked for before as one of its kind, and after the last time
fewer than `room` other names of this kind. -/
def Reuses (room : Nat) (before : List Query) (q : Query) : Prop :=
  ∃ early name late, before = early ++ (q.1, name) :: late
    ∧ Text.lowercase name = Text.lowercase q.2
    ∧ Text.lowercase q.2 ∉ keysOf q.1 late
    ∧ (keysOf q.1 late).toFinset.card < room

/-- A query adds its key to the keys of its kind. -/
theorem keysOf_concat (kind : NameKind) (qs : List Query) (q : Query) :
    keysOf kind (qs ++ [q])
      = if q.1 = kind then keysOf kind qs ++ [Text.lowercase q.2] else keysOf kind qs := by
  unfold keysOf
  rw [List.filterMap_append]
  split_ifs with h <;> simp [h]

/-- A query reuses a key that is among the last ones used, as many as there is room for. -/
theorem reuses_iff {room : Nat} {before : List Query} {q : Query} :
    Reuses room before q
      ↔ Text.lowercase q.2 ∈ (byLastUse (keysOf q.1 before)).take room := by
  rw [mem_take_byLastUse_iff]
  constructor
  · rintro ⟨early, name, late, rfl, hName, hNot, hShort⟩
    refine ⟨keysOf q.1 early, keysOf q.1 late, ?_, hNot, hShort⟩
    simp [keysOf, hName]
  · rintro ⟨_, keys, hKeys, hNot, hShort⟩
    -- The keys of a kind come from the queries of that kind, so a split of the keys gives one of
    -- the queries.
    obtain ⟨early, rest, rfl, _, hRest⟩ := List.filterMap_eq_append_iff.1 hKeys
    obtain ⟨between, used, late, rfl, hBetween, hUsed, rfl⟩ := List.filterMap_eq_cons_iff.1 hRest
    split_ifs at hUsed with hKind
    refine ⟨early ++ between, used.2, late, ?_, Option.some_inj.1 hUsed, hNot, hShort⟩
    rw [List.append_assoc, ← hKind]

namespace CachedNames

variable {ρ σ : Type} {c : CachedNames ρ} {d : CachedNames σ}

/-- The memory holds the names that were asked for last. -/
def Recalls (c : CachedNames ρ) (asked : List Query) : Prop :=
  ∀ kind, (c.recent kind).names = (byLastUse (keysOf kind asked)).take c.capacity

/-- An empty memory recalls no queries. -/
theorem recalls_ofSource (inner : ρ) (capacity : Nat) : (ofSource inner capacity).Recalls [] := by
  intro kind
  cases kind <;> exact List.take_nil.symm

variable [Resolver ρ] [Resolver σ]

/-- **After a query the memory holds the latest names**, that of the query among them. -/
theorem Recalls.resolve {asked : List Query} (h : c.Recalls asked) (q : Query) :
    (c.resolve q.1 q.2).2.Recalls (asked ++ [q]) := by
  intro kind
  have hServed := c.served_resolve q.1 q.2
  rw [hServed.capacity, hServed.names, keysOf_concat]
  by_cases hKind : kind = q.1
  · rw [if_pos hKind, if_pos hKind.symm, byLastUse_concat, hKind, h q.1,
      take_use_take (nodup_byLastUse _)]
  · rw [if_neg hKind, if_neg (Ne.symm hKind), h kind]

/-- A query is a hit when its name is in the memory. -/
theorem hitsOf_cons (c : CachedNames ρ) (q : Query) (qs : List Query) :
    c.hitsOf (q :: qs) = decide (Text.lowercase q.2 ∈ (c.recent q.1).names)
      :: (c.resolve q.1 q.2).2.hitsOf qs := by
  have hHits := (c.served_resolve q.1 q.2).hits
  rw [hitsOf]
  congr 1
  rw [decide_eq_decide, hHits]
  split_ifs with h <;> simp [h]

/-- Each query of a sequence is a hit exactly if it reuses a key, by induction from the last one. -/
theorem Recalls.hitsOf {asked : List Query} (h : c.Recalls asked) (qs : List Query) :
    (c.hitsOf qs).length = qs.length ∧ ∀ i q, qs[i]? = some q →
      ((c.hitsOf qs)[i]? = some true ↔ Reuses c.capacity (asked ++ qs.take i) q) := by
  -- What has been asked so far grows by the first query, and the rest is asked of what it leaves.
  induction qs generalizing c asked with
  | nil => exact ⟨rfl, fun i q hNone => by cases hNone⟩
  | cons first qs ih =>
    obtain ⟨hLength, hRest⟩ := ih (h.resolve first)
    rw [(c.served_resolve first.1 first.2).capacity] at hRest
    rw [hitsOf_cons]
    refine ⟨by rw [List.length_cons, List.length_cons, hLength], ?_⟩
    intro i q hq
    cases i with
    | zero =>
      obtain rfl := Option.some_inj.1 hq
      rw [List.take_zero, List.append_nil, reuses_iff, ← h first.1]
      simp
    | succ i =>
      have hThen := hRest i q hq
      rw [List.append_assoc] at hThen
      exact hThen

/-- Every query is a hit or a miss. -/
theorem counts_askAll (c : CachedNames ρ) (qs : List Query) :
    (Resolver.askAll c qs).2.hits = c.hits + (c.hitsOf qs).count true
      ∧ (Resolver.askAll c qs).2.misses = c.misses + (c.hitsOf qs).count false := by
  induction qs generalizing c with
  | nil => exact ⟨rfl, rfl⟩
  | cons q qs ih =>
    have hServed := c.served_resolve q.1 q.2
    obtain ⟨hHits, hMisses⟩ := ih (c.resolve q.1 q.2).2
    rw [hitsOf_cons, List.count_cons, List.count_cons]
    show (Resolver.askAll (c.resolve q.1 q.2).2 qs).2.hits = _
      ∧ (Resolver.askAll (c.resolve q.1 q.2).2 qs).2.misses = _
    rw [hHits, hMisses, hServed.hits, hServed.misses]
    -- The first query is a hit or a miss, and the others follow it.
    by_cases hThere : Text.lowercase q.2 ∈ (c.recent q.1).names
    · have hOther : (true == false) = false := rfl
      simp only [hThere, if_true, decide_true, beq_self_eq_true, hOther, Bool.false_eq_true,
        if_false]
      omega
    · have hOther : (false == true) = false := rfl
      simp only [hThere, if_false, decide_false, beq_self_eq_true, hOther, Bool.false_eq_true,
        if_true]
      omega

/-- **Of the hits of a kind the queries of the other kind make none and take none away**, and it
does not matter which sources are asked. -/
theorem hitsOf_filter (kind : NameKind) (qs : List Query) (hRoom : d.capacity = c.capacity)
    (hNames : (d.recent kind).names = (c.recent kind).names) :
    ((qs.zip (c.hitsOf qs)).filter (·.1.1 = kind)).map (·.2)
      = d.hitsOf (qs.filter (·.1 = kind)) := by
  -- The two memories need to agree on the names of the one kind only.
  induction qs generalizing c d with
  | nil => rfl
  | cons q qs ih =>
    have hServed := c.served_resolve q.1 q.2
    have hAfter := hServed.names kind
    rw [hitsOf_cons, List.zip_cons_cons]
    by_cases hKind : q.1 = kind
    · have hServed' := d.served_resolve q.1 q.2
      have hAfter' := hServed'.names kind
      rw [if_pos hKind.symm, hKind] at hAfter hAfter'
      rw [List.filter_cons_of_pos (by simpa using hKind), List.map_cons,
        List.filter_cons_of_pos (by simpa using hKind), hitsOf_cons, hKind, hNames]
      congr 1
      refine ih ?_ ?_
      · rw [← hKind, hServed.capacity, hServed'.capacity, hRoom]
      · rw [hAfter, hAfter', hNames, hRoom]
    · rw [if_neg (Ne.symm hKind)] at hAfter
      rw [List.filter_cons_of_neg (by simpa using hKind),
        List.filter_cons_of_neg (by simpa using hKind)]
      exact ih (hRoom.trans hServed.capacity.symm) (hNames.trans hAfter.symm)

/-! ## §4. New memories. -/

/-- **Which queries the memory answers.**  Whatever the source, a query to a memory that was new is
a hit just if its name has been asked for before as one of its kind, and since the last time fewer
other names of the kind than the memory has room for; it has room for one at least.  Every query is
counted once, as a hit or as a miss.  The hits of a kind are those that there would be if nothing
of the other kind were asked for, and if another source were asked. -/
theorem hit_iff_reuses (inner : ρ) (capacity : Nat) (qs : List Query) :
    let c := ofSource inner capacity
    (c.hitsOf qs).length = qs.length
      ∧ (∀ i q, qs[i]? = some q →
        ((c.hitsOf qs)[i]? = some true ↔ Reuses (max 1 capacity) (qs.take i) q))
      ∧ (Resolver.askAll c qs).2.hits = (c.hitsOf qs).count true
      ∧ (Resolver.askAll c qs).2.hits + (Resolver.askAll c qs).2.misses = qs.length
      ∧ ∀ (σ : Type) [Resolver σ] (other : σ) (kind : NameKind),
        ((qs.zip (c.hitsOf qs)).filter (·.1.1 = kind)).map (·.2)
          = (ofSource other capacity).hitsOf (qs.filter (·.1 = kind)) := by
  intro c
  obtain ⟨hLength, hReuses⟩ := (recalls_ofSource inner capacity).hitsOf qs
  obtain ⟨hHits, hMisses⟩ := c.counts_askAll qs
  have hHits' : (Resolver.askAll c qs).2.hits = (c.hitsOf qs).count true :=
    hHits.trans (Nat.zero_add _)
  have hMisses' : (Resolver.askAll c qs).2.misses = (c.hitsOf qs).count false :=
    hMisses.trans (Nat.zero_add _)
  refine ⟨hLength, hReuses, hHits', ?_, ?_⟩
  · rw [hHits', hMisses', ← hLength]
    exact List.count_true_add_count_false _
  · intro σ _ other kind
    -- Both memories are empty at first, and equal for the kind from then on.
    refine hitsOf_filter kind qs rfl ?_
    cases kind <;> rfl

/-- Names that nobody has, three of players and one of a guild between them. -/
def askedNames : List Query :=
  [(.player, "Tom"), (.player, "Eremo"), (.guild, "Vera"), (.player, "TOM"), (.player, "Vera"),
    (.player, "Eremo")]

/-- With room for two names Tom is remembered when he is asked for again, and Eremo is not. -/
theorem hit_iff_reuses_askedNames :
    askedNames[3]? = some (.player, "TOM") ∧ Reuses 2 (askedNames.take 3) (.player, "TOM")
      ∧ askedNames[5]? = some (.player, "Eremo")
      ∧ ¬ Reuses 2 (askedNames.take 5) (.player, "Eremo") := by
  obtain ⟨_, hReuses, _⟩ := hit_iff_reuses (NameSource.ofRows [] []) 2 askedNames
  have hHits : (ofSource (NameSource.ofRows [] []) 2).hitsOf askedNames
      = [false, false, false, true, false, false] := by
    decide +kernel
  rw [hHits] at hReuses
  refine ⟨rfl, (hReuses 3 _ rfl).1 rfl, rfl, ?_⟩
  intro hEremo
  cases (hReuses 5 _ rfl).2 hEremo

end CachedNames

end Homestead

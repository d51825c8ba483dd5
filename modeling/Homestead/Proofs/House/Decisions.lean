/-
  Homestead.Proofs.House.Decisions
  ────────────────────────────────
  **WHOM A LIST LETS IN.**

  A list is built entry by entry, and decides by the first pattern that
  matches a name.  The order in which the entries came cannot be told from
  its decisions: all rejections stand before all grants, so a pattern that
  rejects is found first if there is one, and an expression that comes a
  second time has its pattern in the list already.

  What a list has gathered is therefore said by the set of its entries
  alone, and one more entry adds to it what the entry says.

  Main results:
    * `Gathers.addEntry` — what one entry adds;
    * `Gathers.admits_iff` — what a list that has gathered entries decides;
    * `admits_iff_entries` — decisions read off the entries of a text.
-/
import Homestead.Proofs.House.Entries
import Homestead.Proofs.House.Patterns

namespace Homestead

/-! ## §1. What entries say. -/

namespace AccessEntry

/-- The entry rejects whoever has the name: it is an expression with `!` in front, and what stands
behind spells the name, both lower-cased. -/
def Rejects (name : String) : AccessEntry → Prop
  | .expression text => ∃ pattern, (Text.lowercase text).toList = '!' :: pattern ∧ pattern ≠ []
    ∧ Wildcard.Spells pattern (Text.lowercase name).toList
  | _ => False

/-- The entry lets a visitor in: it is an expression without `!` in front that spells the name, both
lower-cased, or it names the character, or the guild of the character. -/
def LetsIn (names : NameSource) (visitor : Visitor) : AccessEntry → Prop
  | .expression text => ∃ c pattern, (Text.lowercase text).toList = c :: pattern ∧ c ≠ '!'
    ∧ Wildcard.Spells (c :: pattern) (Text.lowercase visitor.name).toList
  | .player name => names.find? .player name = some visitor.player
  | .guild name => ∃ id, visitor.guild = some id ∧ names.find? .guild name = some id

/-- Some entries let a visitor in: none of them rejects him, and one lets him in. -/
structure Admit (names : NameSource) (E : AccessEntry → Prop) (visitor : Visitor) : Prop where
  /-- None rejects. -/
  unrejected : ∀ entry, E entry → ¬ entry.Rejects visitor.name
  /-- One lets in. -/
  letsIn : ∃ entry, E entry ∧ entry.LetsIn names visitor

end AccessEntry

namespace AccessList

variable {names : NameSource} {E E' : AccessEntry → Prop} {l : AccessList} {entry : AccessEntry}
  {visitor : Visitor}

/-! ## §2. What a list has gathered. -/

/-- The list has gathered some entries. -/
structure Gathers (names : NameSource) (E : AccessEntry → Prop) (l : AccessList) : Prop where
  /-- The characters that they name. -/
  players : ∀ id, id ∈ l.players ↔ ∃ name, E (.player name) ∧ names.find? .player name = some id
  /-- The guilds that they name. -/
  guilds : ∀ id, id ∈ l.guilds ↔ ∃ name, E (.guild name) ∧ names.find? .guild name = some id
  /-- The expressions among them that are patterns, lower-cased. -/
  expressions : ∀ expression, expression ∈ l.expressions
    ↔ (∃ text, E (.expression text) ∧ Text.lowercase text = expression)
      ∧ (patternOf? expression.toList).isSome = true
  /-- The patterns of these expressions. -/
  patterns : ∀ pattern, pattern ∈ l.patterns
    ↔ ∃ expression ∈ l.expressions, patternOf? expression.toList = some pattern
  /-- Rejections stand before grants. -/
  sorted : l.patterns.Pairwise fun p q => p.allow = true → q.allow = true

/-- A list without entries has gathered nothing. -/
theorem gathers_nothing (names : NameSource) (text : String) :
    Gathers names (fun _ => False) { text } where
  players id := iff_of_false List.not_mem_nil (by rintro ⟨_, h, _⟩; exact h)
  guilds id := iff_of_false List.not_mem_nil (by rintro ⟨_, h, _⟩; exact h)
  expressions expression := iff_of_false List.not_mem_nil (by rintro ⟨⟨_, h, _⟩, _⟩; exact h)
  patterns pattern := iff_of_false List.not_mem_nil (by rintro ⟨_, h, _⟩; cases h)
  sorted := List.Pairwise.nil

/-- It matters which entries were gathered, and not how they are told. -/
theorem Gathers.congr (h : l.Gathers names E) (hE : ∀ entry, E entry ↔ E' entry) :
    l.Gathers names E' := by
  obtain rfl : E = E' := funext fun entry => propext (hE entry)
  exact h

/-! ## §3. One more entry. -/

/-- A number that is inserted joins those that were there. -/
theorem mem_insertNew {ids : List UInt32} {id j : UInt32} :
    j ∈ (insertNew ids id).2 ↔ j ∈ ids ∨ j = id := by
  unfold insertNew
  split_ifs with hOld
  · refine (or_iff_left_of_imp ?_).symm
    rintro rfl
    exact List.contains_iff_mem.1 hOld
  · rw [List.mem_append, List.mem_singleton]

/-- Adding a player asks for the name, and lists the number that is answered. -/
theorem addPlayer_eq (l : AccessList) (name : String) (names : NameSource) :
    (l.addPlayer name names).2
      = ({ l with players := ((names.find? .player name).map fun id =>
          (insertNew l.players id).2).getD l.players }, names) := by
  have hResolve : Resolver.resolve names .player name = (names.find? .player name, names) := rfl
  unfold addPlayer
  rw [hResolve]
  cases names.find? .player name <;> rfl

/-- Adding a guild asks for the name, and lists the number that is answered. -/
theorem addGuild_eq (l : AccessList) (name : String) (names : NameSource) :
    (l.addGuild name names).2
      = ({ l with guilds := ((names.find? .guild name).map fun id =>
          (insertNew l.guilds id).2).getD l.guilds }, names) := by
  have hResolve : Resolver.resolve names .guild name = (names.find? .guild name, names) := rfl
  unfold addGuild
  rw [hResolve]
  cases names.find? .guild name <;> rfl

/-- The numbers that are known once one more name has been looked up. -/
theorem mem_known_iff {ids : List UInt32} {answer : Option UInt32} {id : UInt32} :
    id ∈ (answer.map fun id => (insertNew ids id).2).getD ids ↔ id ∈ ids ∨ answer = some id := by
  cases answer with
  | none => simp
  | some new =>
    rw [Option.map_some, Option.getD_some, mem_insertNew, Option.some_inj]
    exact or_congr_right eq_comm

/-- One more name of a kind, whose entries are made by `f`. -/
theorem mem_known_iff_named {f : String → AccessEntry} (hf : ∀ m n, f m = f n → m = n)
    {kind : NameKind} {ids : List UInt32}
    (h : ∀ id, id ∈ ids ↔ ∃ name, E (f name) ∧ names.find? kind name = some id) (name : String)
    (id : UInt32) :
    id ∈ ((names.find? kind name).map fun id => (insertNew ids id).2).getD ids
      ↔ ∃ other, (E (f other) ∨ f other = f name) ∧ names.find? kind other = some id := by
  rw [mem_known_iff, h]
  constructor
  · rintro (⟨other, hE, hFind⟩ | hFind)
    · exact ⟨other, .inl hE, hFind⟩
    · exact ⟨name, .inr rfl, hFind⟩
  · rintro ⟨other, hE | hNew, hFind⟩
    · exact .inl ⟨other, hE, hFind⟩
    · exact .inr (hf other name hNew ▸ hFind)

/-- An entry leaves the source of names. -/
theorem addEntry_names (state : AccessList × NameSource) (entry : AccessEntry) :
    (addEntry state entry).2 = state.2 := by
  cases entry with
  | guild name => rw [addEntry, addGuild_eq]
  | expression text => rfl
  | player name => rw [addEntry, addPlayer_eq]

/-- A list gathers the player that is added. -/
theorem Gathers.addPlayer (h : l.Gathers names E) (name : String) :
    (addEntry (l, names) (.player name)).1.Gathers names (fun e => E e ∨ e = .player name) := by
  rw [addEntry, addPlayer_eq]
  refine ⟨fun id => ?_, fun id => ?_, fun x => ?_, h.patterns, h.sorted⟩
  · exact mem_known_iff_named (fun _ _ => AccessEntry.player.inj) h.players name id
  · simpa using h.guilds id
  · simpa using h.expressions x

/-- A list gathers the guild that is added. -/
theorem Gathers.addGuild (h : l.Gathers names E) (name : String) :
    (addEntry (l, names) (.guild name)).1.Gathers names (fun e => E e ∨ e = .guild name) := by
  rw [addEntry, addGuild_eq]
  refine ⟨fun id => ?_, fun id => ?_, fun x => ?_, h.patterns, h.sorted⟩
  · simpa using h.players id
  · exact mem_known_iff_named (fun _ _ => AccessEntry.guild.inj) h.guilds name id
  · simpa using h.expressions x

/-- The list with one more pattern, in front if it rejects and at the end if not. -/
def withPattern (l : AccessList) (expression : String) (pattern : AccessPattern) : AccessList :=
  { l with
    patterns := if pattern.allow then l.patterns ++ [pattern] else pattern :: l.patterns
    expressions := l.expressions ++ [expression] }

/-- The patterns after an expression is added are those before and the new one. -/
theorem mem_patterns_withPattern {expression : String} {p pattern : AccessPattern} :
    p ∈ (l.withPattern expression pattern).patterns ↔ p ∈ l.patterns ∨ p = pattern := by
  unfold withPattern
  dsimp only
  split_ifs
  · rw [List.mem_append, List.mem_singleton]
  · rw [List.mem_cons, or_comm]

/-- **Rejections stay before grants**, wherever the new pattern belongs. -/
theorem sorted_withPattern (h : l.patterns.Pairwise fun p q => p.allow = true → q.allow = true)
    (expression : String) (pattern : AccessPattern) :
    (l.withPattern expression pattern).patterns.Pairwise
      fun p q => p.allow = true → q.allow = true := by
  unfold withPattern
  dsimp only
  split_ifs with hAllow
  · rw [List.pairwise_append]
    refine ⟨h, List.pairwise_singleton _ _, fun p _ q hq _ => ?_⟩
    rwa [List.mem_singleton.1 hq]
  · rw [List.pairwise_cons]
    exact ⟨fun q _ hGrant => absurd hGrant hAllow, h⟩

/-- Adding an expression changes nothing if the list has it or there is no pattern in it, and adds
its pattern otherwise. -/
theorem addExpression_cases (l : AccessList) (text : String) :
    (Text.lowercase text ∈ l.expressions ∨ patternOf? (Text.lowercase text).toList = none)
        ∧ (l.addExpression text).2 = l
      ∨ ∃ pattern, patternOf? (Text.lowercase text).toList = some pattern
        ∧ (l.addExpression text).2 = l.withPattern (Text.lowercase text) pattern := by
  unfold addExpression
  dsimp only
  split_ifs with hOld
  · exact .inl ⟨.inl (List.contains_iff_mem.1 hOld), rfl⟩
  · cases hPattern : patternOf? (Text.lowercase text).toList with
    | none => exact .inl ⟨.inr rfl, rfl⟩
    | some pattern => exact .inr ⟨pattern, rfl, rfl⟩

/-- The expressions of one more entry. -/
theorem exists_expression_iff {text expression : String} :
    (∃ t, (E (.expression t) ∨ AccessEntry.expression t = .expression text)
        ∧ Text.lowercase t = expression)
      ↔ (∃ t, E (.expression t) ∧ Text.lowercase t = expression)
        ∨ Text.lowercase text = expression := by
  constructor
  · rintro ⟨t, hE | hNew, hLower⟩
    · exact .inl ⟨t, hE, hLower⟩
    · exact .inr (AccessEntry.expression.inj hNew ▸ hLower)
  · rintro (⟨t, hE, hLower⟩ | hLower)
    · exact ⟨t, .inl hE, hLower⟩
    · exact ⟨text, .inr rfl, hLower⟩

/-- **One more expression** adds its pattern, unless the list has it or there is none. -/
theorem Gathers.addExpression (h : l.Gathers names E) (text : String) :
    (l.addExpression text).2.Gathers names (fun e => E e ∨ e = .expression text) := by
  have hPlayers : ∀ id, id ∈ l.players ↔ ∃ name, (E (.player name) ∨ AccessEntry.player name
      = .expression text) ∧ names.find? .player name = some id := by simpa using h.players
  have hGuilds : ∀ id, id ∈ l.guilds ↔ ∃ name, (E (.guild name) ∨ AccessEntry.guild name
      = .expression text) ∧ names.find? .guild name = some id := by simpa using h.guilds
  obtain ⟨hSpare, hSame⟩ | ⟨pattern, hPattern, hNew⟩ := l.addExpression_cases text
  · rw [hSame]
    refine ⟨hPlayers, hGuilds, fun x => ?_, h.patterns, h.sorted⟩
    -- A pattern of this expression is one that the list has.
    rw [exists_expression_iff, h.expressions]
    refine and_congr_left fun hSome => (or_iff_left_of_imp ?_).symm
    rintro rfl
    obtain hOld | hNone := hSpare
    · exact ((h.expressions _).1 hOld).1
    · rw [hNone] at hSome
      cases hSome
  · rw [hNew]
    refine ⟨hPlayers, hGuilds, fun x => ?_, fun p => ?_, sorted_withPattern h.sorted _ pattern⟩
    · show x ∈ l.expressions ++ [Text.lowercase text] ↔ _
      rw [exists_expression_iff, List.mem_append, List.mem_singleton, h.expressions, or_and_right,
        eq_comm (a := x)]
      refine or_congr_right (and_iff_left_of_imp ?_).symm
      rintro rfl
      rw [hPattern]
      rfl
    · show _ ↔ ∃ x ∈ l.expressions ++ [Text.lowercase text], _
      rw [mem_patterns_withPattern, h.patterns]
      simp only [List.mem_append, List.mem_singleton, or_and_right, exists_or, exists_eq_left,
        hPattern, Option.some_inj, eq_comm]

/-- **What one entry adds** to a list that has gathered others. -/
theorem Gathers.addEntry (h : l.Gathers names E) (entry : AccessEntry) :
    (addEntry (l, names) entry).1.Gathers names (fun e => E e ∨ e = entry) := by
  cases entry with
  | guild name => exact h.addGuild name
  | expression text => exact h.addExpression text
  | player name => exact h.addPlayer name

/-- What some entries add, one after the other. -/
theorem Gathers.foldl_addEntry (h : l.Gathers names E) (entries : List AccessEntry) :
    (entries.foldl AccessList.addEntry (l, names)).1.Gathers names (fun e => E e ∨ e ∈ entries) := by
  induction entries generalizing l E with
  | nil => exact h.congr fun e => (or_iff_left List.not_mem_nil).symm
  | cons entry entries ih =>
    have hState : AccessList.addEntry (l, names) entry
        = ((AccessList.addEntry (l, names) entry).1, names) :=
      Prod.ext rfl (addEntry_names (l, names) entry)
    rw [List.foldl_cons, hState]
    refine (ih (h.addEntry entry)).congr fun e => ?_
    rw [List.mem_cons, or_assoc]

/-! ## §4. Decisions. -/

/-- The first pattern that matches decides as the rejections and the grants do. -/
theorem first_match_iff {patterns : List AccessPattern}
    (hSorted : patterns.Pairwise fun p q => p.allow = true → q.allow = true)
    (matched : AccessPattern → Bool) (otherwise : Bool) :
    ((patterns.find? matched).map (·.allow)).getD otherwise = true
    ↔ (∀ p ∈ patterns, p.allow = false → matched p = false)
      ∧ ((∃ p ∈ patterns, p.allow = true ∧ matched p = true) ∨ otherwise = true) := by
  cases hFind : patterns.find? matched with
  | none =>
    have hNone : ∀ p ∈ patterns, matched p = false := by simpa using hFind
    refine ⟨fun h => ⟨fun p hp _ => hNone p hp, .inr h⟩, fun ⟨_, hOne⟩ => hOne.resolve_left ?_⟩
    rintro ⟨p, hp, -, hMatched⟩
    rw [hNone p hp] at hMatched
    cases hMatched
  | some pattern =>
    obtain ⟨hMatched, before, after, rfl, hBefore⟩ := List.find?_eq_some_iff_append.1 hFind
    have hMem : pattern ∈ before ++ pattern :: after :=
      List.mem_append_right _ List.mem_cons_self
    show pattern.allow = true ↔ _
    constructor
    · intro hAllow
      refine ⟨fun p hp hReject => ?_, .inl ⟨pattern, hMem, hAllow, hMatched⟩⟩
      -- No rejection stands behind a grant.
      rw [List.mem_append, List.mem_cons] at hp
      obtain hp | rfl | hp := hp
      · simpa using hBefore p hp
      · rw [hReject] at hAllow
        cases hAllow
      · have hBehind := (List.pairwise_cons.1 (List.pairwise_append.1 hSorted).2.1).1 p hp hAllow
        rw [hReject] at hBehind
        cases hBehind
    · rintro ⟨hRejects, -⟩
      by_contra hReject
      rw [hRejects pattern hMem (Bool.eq_false_iff.2 hReject)] at hMatched
      cases hMatched

/-- The expression is a rejection. -/
theorem patternOf?_reject_iff {expression : List Char} {p : AccessPattern} :
    patternOf? expression = some p ∧ p.allow = false
      ↔ ∃ pattern, expression = '!' :: pattern ∧ pattern ≠ []
        ∧ p = ⟨Wildcard.ofText pattern, false⟩ := by
  unfold patternOf?
  -- The reader has four branches, and rejections are made in the third one.
  split
  next => simp
  next => simp
  next body hBody =>
    have hNotEmpty : body ≠ [] := hBody
    constructor
    · rintro ⟨h, -⟩
      exact ⟨body, rfl, hNotEmpty, (Option.some_inj.1 h).symm⟩
    · rintro ⟨pattern, hEq, -, rfl⟩
      rw [(List.cons.inj hEq).2]
      exact ⟨rfl, rfl⟩
  next hEmpty hBare hReject =>
    constructor
    · rintro ⟨h, hAllow⟩
      rw [← Option.some_inj.1 h] at hAllow
      cases hAllow
    · rintro ⟨pattern, hEq, -, -⟩
      exact absurd hEq (hReject pattern)

/-- The expression is a grant. -/
theorem patternOf?_grant_iff {expression : List Char} {p : AccessPattern} :
    patternOf? expression = some p ∧ p.allow = true
      ↔ ∃ c pattern, expression = c :: pattern ∧ c ≠ '!'
        ∧ p = ⟨Wildcard.ofText (c :: pattern), true⟩ := by
  unfold patternOf?
  -- The reader has four branches, and grants are made in the last one.
  split
  next => simp
  next => simp
  next body hBody =>
    constructor
    · rintro ⟨h, hAllow⟩
      rw [← Option.some_inj.1 h] at hAllow
      cases hAllow
    · rintro ⟨c, pattern, hEq, hGrant, -⟩
      exact absurd (List.cons.inj hEq).1.symm hGrant
  next hEmpty hBare hReject =>
    constructor
    · rintro ⟨h, -⟩
      obtain ⟨c, pattern, hEq⟩ := List.exists_cons_of_ne_nil hEmpty
      refine ⟨c, pattern, hEq, ?_, (hEq ▸ Option.some_inj.1 h).symm⟩
      rintro rfl
      exact hReject pattern hEq
    · rintro ⟨c, pattern, rfl, -, rfl⟩
      exact ⟨rfl, rfl⟩

/-- The patterns of a list are those of the expressions it has gathered. -/
theorem Gathers.mem_patterns_iff (h : l.Gathers names E) {p : AccessPattern} :
    p ∈ l.patterns
      ↔ ∃ text, E (.expression text) ∧ patternOf? (Text.lowercase text).toList = some p := by
  rw [h.patterns]
  constructor
  · rintro ⟨expression, hMem, hPattern⟩
    obtain ⟨⟨text, hE, rfl⟩, -⟩ := (h.expressions expression).1 hMem
    exact ⟨text, hE, hPattern⟩
  · rintro ⟨text, hE, hPattern⟩
    refine ⟨_, (h.expressions _).2 ⟨⟨text, hE, rfl⟩, ?_⟩, hPattern⟩
    rw [hPattern]
    rfl

/-- The rejections of a list that match a name are the entries that reject it. -/
theorem Gathers.rejects_iff (h : l.Gathers names E) (name : String) :
    (∀ p ∈ l.patterns, p.allow = false →
        Wildcard.accepts p.body (Text.lowercase name).toList = false)
      ↔ ∀ entry, E entry → ¬ entry.Rejects name := by
  constructor
  · intro hNone entry hE hRejects
    cases entry with
    | expression text =>
      obtain ⟨pattern, hText, hNotEmpty, hSpells⟩ := hRejects
      obtain ⟨hPattern, hAllow⟩ := patternOf?_reject_iff.2 ⟨pattern, hText, hNotEmpty, rfl⟩
      have hNot := hNone _ (h.mem_patterns_iff.2 ⟨text, hE, hPattern⟩) hAllow
      rw [Wildcard.accepts_iff_spells.2 hSpells] at hNot
      cases hNot
    -- Only patterns reject.
    | _ => exact hRejects
  · intro hNone p hp hAllow
    obtain ⟨text, hE, hPattern⟩ := h.mem_patterns_iff.1 hp
    obtain ⟨pattern, hText, hNotEmpty, rfl⟩ := patternOf?_reject_iff.1 ⟨hPattern, hAllow⟩
    refine Bool.eq_false_iff.2 fun hAccepts => hNone _ hE ?_
    exact ⟨pattern, hText, hNotEmpty, Wildcard.accepts_iff_spells.1 hAccepts⟩

/-- The grants of a list that match a name are the expressions that let it in. -/
theorem Gathers.grants_iff (h : l.Gathers names E) (visitor : Visitor) :
    (∃ p ∈ l.patterns, p.allow = true
        ∧ Wildcard.accepts p.body (Text.lowercase visitor.name).toList = true)
      ↔ ∃ text, E (.expression text) ∧ (AccessEntry.expression text).LetsIn names visitor := by
  constructor
  · rintro ⟨p, hp, hAllow, hAccepts⟩
    obtain ⟨text, hE, hPattern⟩ := h.mem_patterns_iff.1 hp
    obtain ⟨c, pattern, hText, hGrant, rfl⟩ := patternOf?_grant_iff.1 ⟨hPattern, hAllow⟩
    exact ⟨text, hE, c, pattern, hText, hGrant, Wildcard.accepts_iff_spells.1 hAccepts⟩
  · rintro ⟨text, hE, c, pattern, hText, hGrant, hSpells⟩
    obtain ⟨hPattern, hAllow⟩ := patternOf?_grant_iff.2 ⟨c, pattern, hText, hGrant, rfl⟩
    exact ⟨_, h.mem_patterns_iff.2 ⟨text, hE, hPattern⟩, hAllow,
      Wildcard.accepts_iff_spells.2 hSpells⟩

/-- The numbers of a list let in whom entries name. -/
theorem Gathers.named_iff (h : l.Gathers names E) (visitor : Visitor) :
    (l.players.contains visitor.player || visitor.guild.any l.guilds.contains) = true
      ↔ (∃ name, E (.player name) ∧ (AccessEntry.player name).LetsIn names visitor)
        ∨ ∃ name, E (.guild name) ∧ (AccessEntry.guild name).LetsIn names visitor := by
  rw [Bool.or_eq_true, List.contains_iff_mem, h.players, Option.any_eq_true]
  refine or_congr Iff.rfl ?_
  constructor
  · rintro ⟨id, hGuild, hMem⟩
    obtain ⟨name, hE, hFind⟩ := (h.guilds id).1 (List.contains_iff_mem.1 hMem)
    exact ⟨name, hE, id, hGuild, hFind⟩
  · rintro ⟨name, hE, id, hGuild, hFind⟩
    exact ⟨id, hGuild, List.contains_iff_mem.2 ((h.guilds id).2 ⟨name, hE, hFind⟩)⟩

/-- The first pattern that accepts the name decides, and otherwise the listed numbers do. -/
theorem admits_eq (l : AccessList) (visitor : Visitor) :
    l.admits visitor = ((l.patterns.find? fun p =>
        Wildcard.accepts p.body (Text.lowercase visitor.name).toList).map (·.allow)).getD
      (l.players.contains visitor.player || visitor.guild.any l.guilds.contains) := by
  unfold admits
  dsimp only
  cases l.patterns.find? fun p =>
      Wildcard.accepts p.body (Text.lowercase visitor.name).toList <;> rfl

/-- **What a list decides** that has gathered some entries. -/
theorem Gathers.admits_iff (h : l.Gathers names E) (visitor : Visitor) :
    l.admits visitor = true ↔ AccessEntry.Admit names E visitor := by
  -- Whoever is let in is let in by a pattern, by name or as of a guild.
  have hLetsIn : (∃ entry, E entry ∧ entry.LetsIn names visitor)
      ↔ (∃ text, E (.expression text) ∧ (AccessEntry.expression text).LetsIn names visitor)
        ∨ (∃ name, E (.player name) ∧ (AccessEntry.player name).LetsIn names visitor)
        ∨ ∃ name, E (.guild name) ∧ (AccessEntry.guild name).LetsIn names visitor := by
    constructor
    · rintro ⟨entry, hEntry⟩
      cases entry with
      | guild name => exact .inr (.inr ⟨name, hEntry⟩)
      | expression text => exact .inl ⟨text, hEntry⟩
      | player name => exact .inr (.inl ⟨name, hEntry⟩)
    · rintro (⟨text, hEntry⟩ | ⟨name, hEntry⟩ | ⟨name, hEntry⟩)
      · exact ⟨_, hEntry⟩
      · exact ⟨_, hEntry⟩
      · exact ⟨_, hEntry⟩
  rw [admits_eq, first_match_iff h.sorted, h.rejects_iff, h.grants_iff, h.named_iff, ← hLetsIn]
  exact ⟨fun ⟨hNone, hOne⟩ => ⟨hNone, hOne⟩, fun ⟨hNone, hOne⟩ => ⟨hNone, hOne⟩⟩

/-- The list of a text and of entries that are added to it. -/
def ofEntries (names : NameSource) (text : String) (additions : List AccessEntry) : AccessList :=
  (additions.foldl addEntry (ofText text names)).1

/-- What such a list has gathered. -/
theorem gathers_ofEntries (names : NameSource) (text : String) (additions : List AccessEntry) :
    (ofEntries names text additions).Gathers names
      (fun entry => entry.WrittenIn text ∨ entry ∈ additions) := by
  have hFold : ofEntries names text additions
      = ((AccessEntry.ofText text ++ additions).foldl addEntry ({ text }, names)).1 := by
    rw [ofEntries, ofText, List.foldl_append]
  rw [hFold]
  refine ((gathers_nothing names text).foldl_addEntry _).congr fun entry => ?_
  rw [false_or, List.mem_append, AccessEntry.mem_ofText_iff]

/-- What the list of a text decides. -/
theorem admits_ofText_iff (names : NameSource) (text : String) (visitor : Visitor) :
    (ofText text names).1.admits visitor = true
      ↔ AccessEntry.Admit names (fun entry => entry ∈ AccessEntry.ofText text) visitor :=
  ((gathers_ofEntries names text []).congr fun entry => by
    rw [or_iff_left List.not_mem_nil, AccessEntry.mem_ofText_iff]).admits_iff visitor

/-- **A list decides by its entries**: by those that are written in its text and those that have
been added since.  Whoever is rejected by an entry stays outside; whoever is not gets in if an entry
lets him in.  Whether entries come in another order or more than once makes no difference. -/
theorem admits_iff_entries (names : NameSource) (text : String) (additions : List AccessEntry)
    (visitor : Visitor) :
    ((ofEntries names text additions).admits visitor = true
        ↔ AccessEntry.Admit names (fun entry => entry.WrittenIn text ∨ entry ∈ additions) visitor)
      ∧ ∀ (text' : String) (additions' : List AccessEntry),
        (∀ entry, entry.WrittenIn text ∨ entry ∈ additions
          ↔ entry.WrittenIn text' ∨ entry ∈ additions') →
        (ofEntries names text' additions').admits visitor
          = (ofEntries names text additions).admits visitor := by
  have hGathers := gathers_ofEntries names text additions
  refine ⟨hGathers.admits_iff visitor, fun text' additions' hSame => ?_⟩
  rw [Bool.eq_iff_iff, hGathers.admits_iff, ((gathers_ofEntries names text' additions').congr
    fun entry => (hSame entry).symm).admits_iff]

/-- Two characters and a guild. -/
def townNames : NameSource :=
  .ofRows [(10, "Eremo"), (12, "Tom Riddle")] [(7, "Red Rose")]

/-- Tom is kept out wherever his rejection stands, though everybody else is let in. -/
theorem admits_iff_entries_tom :
    (∀ entry : AccessEntry, entry.WrittenIn "*\n!tom*\nEremo" ∨ entry ∈ []
        ↔ entry.WrittenIn "Eremo, *, *" ∨ entry ∈ [AccessEntry.expression "!tom*"])
      ∧ (ofEntries townNames "Eremo, *, *" [.expression "!tom*"]).admits ⟨"Tom Riddle", 12, none⟩
        = (ofEntries townNames "*\n!tom*\nEremo" []).admits ⟨"Tom Riddle", 12, none⟩
      ∧ (ofEntries townNames "*\n!tom*\nEremo" []).admits ⟨"Tom Riddle", 12, none⟩ = false
      ∧ (ofEntries townNames "*\n!tom*\nEremo" []).admits ⟨"Cipfried", 11, none⟩ = true := by
  have hFirst : AccessEntry.ofText "*\n!tom*\nEremo"
      = [.expression "*", .expression "!tom*", .player "Eremo"] := by decide +kernel
  have hSecond : AccessEntry.ofText "Eremo, *, *"
      = [.player "Eremo", .expression "*", .expression "*"] := by decide +kernel
  -- The entries are the same, in another order and one of them twice.
  have hSame : ∀ entry : AccessEntry, entry.WrittenIn "*\n!tom*\nEremo" ∨ entry ∈ []
      ↔ entry.WrittenIn "Eremo, *, *" ∨ entry ∈ [AccessEntry.expression "!tom*"] := by
    intro entry
    rw [← AccessEntry.mem_ofText_iff, ← AccessEntry.mem_ofText_iff, hFirst, hSecond]
    simp only [List.mem_cons, List.not_mem_nil]
    tauto
  exact ⟨hSame, (admits_iff_entries townNames _ [] _).2 _ _ hSame, by decide +kernel,
    by decide +kernel⟩

end AccessList

end Homestead

/-
  Homestead.Proofs.Archive.Connection
  ───────────────────────────────────
  **A TRANSACTION, STATEMENT BY STATEMENT.**

  On a connection a transaction is a run of statements, and many rows take
  many statements, four hundred rows to each.  The archive may decline any
  call, and any statement may fail.  All that statements change is the
  working copy, until the last one puts it in the place of what is stored;
  so a transaction that ends early leaves what is stored as it was, and one
  that goes through has done what its calls say.

  Main results:
    * `Refusals.Allows` — nothing is in the way of a transaction;
    * `Carries` — what a statement does to the working copy;
    * `flatten_pieces`, `length_le_of_mem_pieces` — rows in pieces are all
      the rows, and no piece is too long;
    * `execute_statements` — the statements of a call do what it says;
    * `transaction_outcome` — a transaction, wherever the archive gives up.
-/
import Homestead.Proofs.Archive.Transact

namespace Homestead

/-! ## §1. Connections. -/

/-- A connection to an archive. -/
structure Connection where
  /-- What is stored. -/
  stored : Tables := {}
  /-- What an open transaction has made of it. -/
  working : Option Tables := none
  /-- How many statements there were. -/
  statements : Nat := 0

/-- Where an archive gives up. -/
structure Refusals where
  /-- The calls that it declines. -/
  declines : ArchiveCall → Option ArchiveError := fun _ => none
  /-- The statements that fail, by their place on the connection. -/
  breaks : Nat → Option ArchiveError := fun _ => none

/-- Nothing is in the way of a transaction that makes these calls: none of them is declined, no
statement fails, and every table takes rows. -/
structure Refusals.Allows (r : Refusals) (c : Connection) (calls : List ArchiveCall) : Prop where
  /-- The archive declines none of the calls, nor the beginning or the end. -/
  taken : ∀ call ∈ .begin :: .commit :: calls, r.declines call = none
  /-- No statement fails. -/
  whole : ∀ n, r.breaks n = none
  /-- No table is sealed. -/
  unsealed : ∀ table, c.stored.isSealed table = false

namespace Connection

/-- The connection once a transaction is open. -/
def opened (c : Connection) : Connection :=
  { c with working := some c.stored }

/-- The connection after a statement of an open transaction. -/
def execute (c : Connection) (call : ArchiveCall) : Except ArchiveError Connection :=
  match c.working with
  | some t => (t.execute call).map fun t => { c with working := some t }
  | none => .ok c

/-- The connection once the working copy is stored. -/
def committed (c : Connection) : Connection :=
  { c with stored := c.working.getD c.stored, working := none }

/-- The connection once a transaction that is still open is discarded. -/
def closed (c : Connection) : Connection :=
  { c with working := none }

end Connection

/-- Something that is done to a state step by step, and may end in an error of the archive; the
state is then as the last step left it. -/
abbrev Talk (σ α : Type) :=
  ExceptT ArchiveError (StateM σ) α

namespace Talk

variable {σ α β : Type}

/-- How it goes, and the state as it is then. -/
def on (x : Talk σ α) (s : σ) : Except ArchiveError α × σ :=
  (StateT.run (ExceptT.run x) s).run

/-- How it goes on a connection, with a transaction discarded that is still open at the end. -/
def finish (x : Talk Connection α) (c : Connection) : Except ArchiveError α × Connection :=
  ((x.on c).1, (x.on c).2.closed)

/-- One step of a talk and then another: an error ends the talk where it stands. -/
theorem on_bind (x : Talk σ α) (f : α → Talk σ β) (s : σ) :
    (x >>= f).on s = match x.on s with
      | (.ok a, s) => (f a).on s
      | (.error e, s) => (.error e, s) := by
  unfold on
  rw [ExceptT.run_bind, StateT.run_bind]
  cases h : StateT.run (ExceptT.run x) s with
  | mk result s' => cases result <;> rfl

/-! ## §2. Transactions. -/

/-- The most rows that one statement adds. -/
def maxRows : Nat := 400

/-- A list in pieces of so many elements, the last one perhaps with fewer. -/
def pieces (n : Nat) (as : List α) : List (List α) :=
  if as.length ≤ n ∨ n = 0 then (if as.isEmpty then [] else [as])
  else as.take n :: pieces n (as.drop n)
termination_by as.length
decreasing_by
  rw [List.length_drop]
  omega

/-- The statements that a call takes. -/
def statements : ArchiveCall → List ArchiveCall
  | .insertTiles rows => (pieces maxRows rows).map .insertTiles
  | .insertLists rows => (pieces maxRows rows).map .insertLists
  | call => [call]

/-- Goes on unless the archive declines a call. -/
def ask (r : Refusals) (call : ArchiveCall) : Talk Connection Unit :=
  match r.declines call with
  | some e => throw e
  | none => pure ()

/-- Puts a statement to the archive. -/
def put (r : Refusals) (change : Connection → Except ArchiveError Connection) : Talk Connection Unit := do
  let c ← get
  set { c with statements := c.statements + 1 }
  match r.breaks c.statements with
  | some e => throw e
  | none =>
    match change { c with statements := c.statements + 1 } with
    | .ok c => set c
    | .error e => throw e

/-- Makes a call of an open transaction. -/
def call (r : Refusals) (call : ArchiveCall) : Talk Connection Unit := do
  ask r call
  (statements call).forM fun s => put r (·.execute s)

/-- Makes the calls of an open transaction, up to asking for its end. -/
def work (r : Refusals) (calls : List ArchiveCall) : Talk Connection Unit := do
  calls.forM (call r)
  ask r .commit

/-- Makes the calls of a transaction. -/
def transaction (r : Refusals) (calls : List ArchiveCall) : Talk Connection Unit := do
  ask r .begin
  put r fun c => .ok c.opened
  work r calls
  put r fun c => .ok c.committed

/-! ## §3. Rows in pieces. -/

/-- **The pieces of a list make up the list.** -/
theorem flatten_pieces (n : Nat) (as : List α) : (pieces n as).flatten = as := by
  fun_induction pieces n as with
  | case1 as _ hNone => rw [List.isEmpty_iff.1 hNone, List.flatten_nil]
  | case2 as _ _ => rw [List.flatten_cons, List.flatten_nil, List.append_nil]
  | case3 as _ ih => rw [List.flatten_cons, ih, List.take_append_drop]

/-- No piece is longer than it may be. -/
theorem length_le_of_mem_pieces {n : Nat} (hn : n ≠ 0) (as : List α) :
    ∀ piece ∈ pieces n as, piece.length ≤ n := by
  fun_induction pieces n as with
  | case1 as _ _ => exact fun piece hMem => absurd hMem List.not_mem_nil
  | case2 as hShort _ =>
    intro piece hMem
    rw [List.mem_singleton.1 hMem]
    exact hShort.resolve_right hn
  | case3 as _ ih =>
    rw [List.forall_mem_cons]
    exact ⟨by rw [List.length_take]; exact Nat.min_le_left _ _, ih⟩

/-- Rows of tiles that are inserted together are inserted one part after the other. -/
theorem execute_insertTiles_append (t : Tables) (first second : List TileRow) :
    t.execute (.insertTiles (first ++ second))
      = t.execute (.insertTiles first) >>= fun t => t.execute (.insertTiles second) := by
  cases hSealed : t.isSealed .tiles with
  | false =>
    have hSecond := Tables.execute_insertTiles_of_open
      (t := { t with tiles := t.tiles ++ first.map TileRow.stored }) second hSealed
    rw [Tables.execute_insertTiles_of_open _ hSealed, Tables.execute_insertTiles_of_open _ hSealed]
    refine Eq.trans ?_ hSecond.symm
    rw [List.map_append, List.append_assoc]
  | true =>
    -- A sealed table takes no rows, so the first part decides, if there is anything in it.
    cases first with
    | nil => rfl
    | cons row first =>
      unfold Tables.execute
      simp only [hSealed, List.cons_append, List.isEmpty_cons, Bool.false_eq_true, if_false, if_true]
      rfl

/-- Rows of lists that are inserted together are inserted one part after the other. -/
theorem execute_insertLists_append (t : Tables) (first second : List ListRow) :
    t.execute (.insertLists (first ++ second))
      = t.execute (.insertLists first) >>= fun t => t.execute (.insertLists second) := by
  cases hSealed : t.isSealed .lists with
  | false =>
    have hSecond := Tables.execute_insertLists_of_open
      (t := { t with lists := t.lists ++ first.map ListRow.stored }) second hSealed
    rw [Tables.execute_insertLists_of_open _ hSealed, Tables.execute_insertLists_of_open _ hSealed]
    refine Eq.trans ?_ hSecond.symm
    rw [List.map_append, List.append_assoc]
  | true =>
    -- A sealed table refuses rows, unless there are none to insert.
    cases first with
    | nil => rfl
    | cons row first =>
      unfold Tables.execute
      simp only [hSealed, List.cons_append, List.isEmpty_cons, Bool.false_eq_true, if_false, if_true]
      rfl

/-- Rows in pieces are added as they are in one. -/
theorem foldlM_execute_flatten {insert : List α → ArchiveCall}
    (hNone : ∀ t : Tables, t.execute (insert []) = .ok t)
    (hAppend : ∀ (t : Tables) (first second : List α), t.execute (insert (first ++ second))
      = t.execute (insert first) >>= fun t => t.execute (insert second))
    (ps : List (List α)) (t : Tables) :
    (ps.map insert).foldlM Tables.execute t = t.execute (insert ps.flatten) := by
  induction ps generalizing t with
  | nil => exact (hNone t).symm
  | cons p ps ih =>
    rw [List.map_cons, List.foldlM_cons, List.flatten_cons, hAppend]
    simp only [ih]

/-- **The statements of a call do what the call says.** -/
theorem execute_statements (c : ArchiveCall) (t : Tables) :
    (statements c).foldlM Tables.execute t = t.execute c := by
  have hOne : [c].foldlM Tables.execute t = t.execute c := by
    rw [List.foldlM_cons]
    cases t.execute c <;> rfl
  cases c with
  | insertTiles rows =>
    rw [statements, foldlM_execute_flatten (fun _ => rfl) execute_insertTiles_append,
      flatten_pieces]
  | insertLists rows =>
    rw [statements, foldlM_execute_flatten (fun _ => rfl) execute_insertLists_append,
      flatten_pieces]
  | _ => exact hOne

/-! ## §4. What a statement does. -/

/-- It does to the working copy what `f` says, and nothing to what is stored. -/
structure Carries (r : Refusals) (x : Talk Connection Unit) (f : Tables → Except ArchiveError Tables) :
    Prop where
  /-- What is stored stays as it is, also when the archive gives up. -/
  stored : ∀ c, (x.on c).2.stored = c.stored
  /-- When it goes through, the working copy is the one that `f` gives. -/
  done : ∀ c t, c.working = some t → (x.on c).1 = .ok () →
    ∃ t', f t = .ok t' ∧ (x.on c).2.working = some t'
  /-- When no statement fails, it goes as `f` says. -/
  result : (∀ n, r.breaks n = none) → ∀ c t, c.working = some t →
    (x.on c).1 = (f t).map fun _ => ()

variable {r : Refusals} {x y : Talk Connection Unit} {f g : Tables → Except ArchiveError Tables}

/-- A talk of nothing carries nothing out. -/
theorem Carries.pure : Carries r (pure ()) .ok where
  stored _ := rfl
  done _ t hWorking _ := ⟨t, rfl, hWorking⟩
  result _ _ _ _ := rfl

/-- One thing after another. -/
theorem Carries.bind (hx : Carries r x f) (hy : Carries r y g) :
    Carries r (x >>= fun _ => y) fun t => f t >>= g := by
  constructor
  case stored =>
    intro c
    have hStored := hx.stored c
    rw [on_bind]
    revert hStored
    rcases x.on c with ⟨e | ⟨⟩, c'⟩
    · exact fun hStored => hStored
    · exact fun hStored => (hy.stored c').trans hStored
  case done =>
    intro c t hWorking
    have hDone := hx.done c t hWorking
    rw [on_bind]
    revert hDone
    rcases x.on c with ⟨e | ⟨⟩, c'⟩
    · -- The first part has failed, so the whole has not gone through.
      intro _ hOk
      cases hOk
    · intro hDone hOk
      obtain ⟨t₁, hFirst, hWorking₁⟩ := hDone rfl
      obtain ⟨t₂, hSecond, hWorking₂⟩ := hy.done c' t₁ hWorking₁ hOk
      exact ⟨t₂, by rw [hFirst]; exact hSecond, hWorking₂⟩
  case result =>
    intro hWhole c t hWorking
    have hResult := hx.result hWhole c t hWorking
    have hDone := hx.done c t hWorking
    rw [on_bind]
    revert hResult hDone
    rcases x.on c with ⟨e | ⟨⟩, c'⟩
    · -- Where the first thing ends early, so does all of it.
      intro hResult _
      cases hf : f t with
      | ok t' =>
        rw [hf] at hResult
        cases hResult
      | error e' =>
        rw [hf] at hResult
        exact hResult
    · intro _ hDone
      obtain ⟨t₁, hFirst, hWorking₁⟩ := hDone rfl
      rw [hFirst]
      -- From the copy that the first part leaves, the second does what it says.
      exact hy.result hWhole c' t₁ hWorking₁

/-- Only what is done to the tables matters. -/
theorem Carries.congr (h : Carries r x f) (hSame : ∀ t, f t = g t) : Carries r x g := by
  rwa [← show f = g from funext hSame]

/-- **Many things, one after another.** -/
theorem Carries.forM {β : Type} {p : β → Talk Connection Unit} {f : Tables → β → Except ArchiveError Tables}
    (h : ∀ b, Carries r (p b) fun t => f t b) (bs : List β) :
    Carries r (bs.forM p) fun t => bs.foldlM f t := by
  induction bs with
  | nil => exact Carries.pure
  | cons b bs ih =>
    show Carries r (p b >>= fun _ => bs.forM p) _
    exact ((h b).bind ih).congr fun t => List.foldlM_cons.symm

/-- A question is refused or changes nothing. -/
theorem on_ask (r : Refusals) (call : ArchiveCall) (c : Connection) : (ask r call).on c
    = match r.declines call with
      | some e => (.error e, c)
      | none => (.ok (), c) := by
  unfold ask
  cases r.declines call <;> rfl

/-- A question of the archive is carried as its answer says. -/
theorem carries_ask (r : Refusals) (a : Archive) (hSame : a.declines = r.declines)
    (call : ArchiveCall) : Carries r (ask r call) fun t => a.ask call >>= fun _ => .ok t := by
  -- The archive declines just what the connection refuses.
  have hArchive : ∀ t : Tables, (a.ask call >>= fun _ => Except.ok t)
      = match r.declines call with
        | some e => .error e
        | none => .ok t := by
    intro t
    unfold Archive.ask
    rw [hSame]
    cases r.declines call <;> rfl
  constructor
  case stored =>
    intro c
    rw [on_ask]
    cases r.declines call <;> rfl
  case done =>
    intro c t hWorking
    rw [on_ask, hArchive]
    cases r.declines call with
    | some e => exact fun hOk => by cases hOk
    | none => exact fun _ => ⟨t, rfl, hWorking⟩
  case result =>
    intro _ c t _
    rw [on_ask, hArchive]
    cases r.declines call <;> rfl

/-- A statement breaks, or is counted and done. -/
theorem on_put (r : Refusals) (change : Connection → Except ArchiveError Connection)
    (c : Connection) : (put r change).on c
      = match r.breaks c.statements with
        | some e => (.error e, { c with statements := c.statements + 1 })
        | none => match change { c with statements := c.statements + 1 } with
          | .ok c' => (.ok (), c')
          | .error e => (.error e, { c with statements := c.statements + 1 }) := by
  show (match r.breaks c.statements with
    | some e => throw e
    | none => match change { c with statements := c.statements + 1 } with
      | .ok c => set c
      | .error e => throw e : Talk Connection Unit).on { c with statements := c.statements + 1 } = _
  cases r.breaks c.statements with
  | some e => rfl
  | none =>
    dsimp only
    cases change { c with statements := c.statements + 1 } <;> rfl

/-- A statement is carried out on the working copy. -/
theorem carries_put (r : Refusals) (s : ArchiveCall) :
    Carries r (put r (·.execute s)) fun t => t.execute s := by
  -- On a connection with a working copy a statement changes that copy, and is counted.
  have hExecute : ∀ (c : Connection) (t : Tables), c.working = some t →
      ({ c with statements := c.statements + 1 } : Connection).execute s
        = (t.execute s).map fun t =>
          { c with statements := c.statements + 1, working := some t } := by
    intro c t hWorking
    unfold Connection.execute
    dsimp only
    rw [hWorking]
  constructor
  case stored =>
    intro c
    rw [on_put]
    cases r.breaks c.statements with
    | some e => rfl
    | none =>
      -- The statement goes to the working copy, if there is one.
      dsimp only
      unfold Connection.execute
      dsimp only
      cases c.working with
      | none => rfl
      | some t =>
        dsimp only
        cases t.execute s <;> rfl
  case done =>
    intro c t hWorking
    rw [on_put]
    cases r.breaks c.statements with
    | some e => exact fun hOk => by cases hOk
    | none =>
      dsimp only
      rw [hExecute c t hWorking]
      cases t.execute s with
      | error e => exact fun hOk => by cases hOk
      | ok t' => exact fun _ => ⟨t', rfl, rfl⟩
  case result =>
    intro hWhole c t hWorking
    rw [on_put, hWhole]
    dsimp only
    rw [hExecute c t hWorking]
    cases t.execute s <;> rfl

/-- **What a call of a transaction does**: to the working copy what it says, and to what is stored
nothing. -/
theorem carries_call {r : Refusals} {a : Archive} (hSame : a.declines = r.declines)
    (c : ArchiveCall) : Carries r (call r c) fun t => a.execute t c := by
  have hPieces := Carries.forM (fun s => carries_put r s) (statements c)
  refine ((carries_ask r a hSame c).bind hPieces).congr ?_
  intro t
  unfold Archive.execute
  cases a.ask c with
  | error e => rfl
  | ok _ => exact execute_statements c t

/-! ## §5. The whole transaction. -/

/-- What a transaction makes of a working copy before it is stored. -/
def worked (a : Archive) (calls : List ArchiveCall) (t : Tables) : Except ArchiveError Tables :=
  calls.foldlM a.execute t >>= fun t => a.ask .commit >>= fun _ => .ok t

/-- The statements of a save are carried out one after the other, by induction over the calls. -/
theorem carries_work {r : Refusals} {a : Archive} (hSame : a.declines = r.declines)
    (calls : List ArchiveCall) : Carries r (work r calls) (worked a calls) :=
  (Carries.forM (fun c => carries_call hSame c) calls).bind (carries_ask r a hSame .commit)

/-- A transaction is refused at its beginning, or is all of its calls on a copy that is
then kept. -/
theorem transact_eq (a : Archive) (calls : List ArchiveCall) :
    a.transact calls = match a.declines .begin with
      | some e => .error e
      | none => (worked a calls a.tables).map fun t => { a with tables := t } := by
  unfold Archive.transact worked
  rw [Archive.ask]
  cases a.declines .begin with
  | some e => rfl
  | none =>
    show (calls.foldlM a.execute a.tables >>= _) = _
    cases calls.foldlM a.execute a.tables with
    | error e => rfl
    | ok t =>
      show (a.ask .commit >>= _) = (a.ask .commit >>= _).map _
      cases a.ask .commit <;> rfl

/-- How a transaction ends on a connection to the archive `a`. -/
structure Outcome (r : Refusals) (a : Archive) (calls : List ArchiveCall)
    (ending : Except ArchiveError Unit × Connection) : Prop where
  /-- An error leaves what is stored as it was. -/
  failed : ∀ e, ending.1 = .error e → ending.2.stored = a.tables
  /-- Otherwise the calls have been made, all of them. -/
  done : ending.1 = .ok () → ∃ a', a.transact calls = .ok a' ∧ ending.2.stored = a'.tables
  /-- Where no statement fails, it ends as it does in one step. -/
  result : (∀ n, r.breaks n = none) → ending.1 = (a.transact calls).map fun _ => ()

/-- A save that ends in an error before its commit leaves what is stored. -/
theorem outcome_of_error {r : Refusals} {a : Archive} {calls : List ArchiveCall} {e : ArchiveError}
    {c : Connection} (hStored : c.stored = a.tables)
    (hResult : (∀ n, r.breaks n = none) → a.transact calls = .error e) :
    Outcome r a calls (.error e, c) where
  failed _ _ := hStored
  done hOk := by cases hOk
  result hWhole := by rw [hResult hWhole]; rfl

/-- From the opening on, all is done to the working copy, and the last statement stores it. -/
theorem outcome_of_opened {r : Refusals} {a : Archive} {c : Connection}
    (hSame : a.declines = r.declines) (hStored : c.stored = a.tables)
    (hWorking : c.working = some a.tables) {calls : List ArchiveCall}
    (hTransact : a.transact calls
      = (worked a calls a.tables).map fun t => { a with tables := t }) :
    Outcome r a calls
      ((work r calls >>= fun _ => put r fun c => .ok c.committed : Talk Connection Unit).on c) := by
  have hWork := carries_work hSame calls
  have hKept := hWork.stored c
  have hDone := hWork.done c a.tables hWorking
  have hResult := fun hWhole => hWork.result hWhole c a.tables hWorking
  rw [on_bind]
  revert hKept hDone hResult
  rcases (work r calls).on c with ⟨e | ⟨⟩, c'⟩
  · -- It ends before the last statement: the working copy was never stored.
    intro hKept _ hResult
    refine outcome_of_error (hKept.trans hStored) fun hWhole => ?_
    have hError := hResult hWhole
    rw [hTransact]
    cases hWorked : worked a calls a.tables with
    | ok t =>
      rw [hWorked] at hError
      cases hError
    | error e' =>
      rw [hWorked] at hError
      obtain rfl := Except.error.inj hError
      rfl
  · -- Only the last statement can fail now, and it stores nothing then.
    intro hKept hDone _
    obtain ⟨t, hWorked, hWorking'⟩ := hDone rfl
    rw [hWorked] at hTransact
    dsimp only
    rw [on_put]
    cases hLast : r.breaks c'.statements with
    | some e =>
      refine outcome_of_error (hKept.trans hStored) fun hWhole => ?_
      rw [hWhole] at hLast
      cases hLast
    | none =>
      constructor
      case failed => exact fun _ hError => by cases hError
      case done =>
        refine fun _ => ⟨_, hTransact, ?_⟩
        show c'.working.getD c'.stored = t
        rw [hWorking']
        rfl
      case result => exact fun _ => by rw [hTransact]; rfl

/-- **A transaction that ends early leaves what is stored as it was, and one that goes through has
done what its calls say**, wherever the archive gives up. -/
theorem transaction_outcome {r : Refusals} {a : Archive} {c : Connection}
    (hSame : a.declines = r.declines) (hStored : c.stored = a.tables)
    (calls : List ArchiveCall) : Outcome r a calls ((transaction r calls).on c) := by
  have hTransact := transact_eq a calls
  unfold transaction
  rw [on_bind, on_ask, ← hSame]
  -- Two refusals may come before the opening, and what is stored has not been touched then.
  cases hBegin : a.declines .begin with
  | some e =>
    rw [hBegin] at hTransact
    exact outcome_of_error hStored fun _ => hTransact
  | none =>
    rw [hBegin] at hTransact
    dsimp only at hTransact ⊢
    rw [on_bind, on_put]
    cases hFirst : r.breaks c.statements with
    | some e =>
      refine outcome_of_error hStored fun hWhole => ?_
      rw [hWhole] at hFirst
      cases hFirst
    | none =>
      dsimp only
      refine outcome_of_opened
        (c := ({ c with statements := c.statements + 1 } : Connection).opened) hSame hStored ?_
        hTransact
      rw [← hStored]
      rfl

end Talk

end Homestead

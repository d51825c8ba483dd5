/-
  Homestead.Proofs.Graph.Attempts
  ───────────────────────────────
  **AN OPERATION THAT IS REFUSED LEAVES THE GRAPH AS IT WAS.**

  Putting an item in, taking it out and detaching it end with a graph,
  whether they go through or not.  All that can stop them is looked at
  before the first list or link is written, in every graph and for every
  item and holder; so the graph beside an error is the one from before, and
  the operations can be spoken of by their results alone.

  Main results:
    * `Unspoiled` — an error leaves the graph as it was;
    * `unspoiled_tryInsert`, `unspoiled_tryRemove`, `unspoiled_tryDetach` —
      so it is with every operation;
    * `tryInsert_eq`, `tryAdd_eq`, `tryRemove_eq`, `tryDetach_eq` — what an
      operation leaves, by its result;
    * `insert_eq`, `remove_eq`, `detach_eq`, `move_eq` — the results,
      written out;
    * `move_cases` — the ways in which a move can leave the graph.
-/
import Homestead.Item.Graph

namespace Homestead

namespace Graph

variable {α : Type} {g g' : Graph} {id : ItemId}

/-! ## §1. What is left after an error. -/

/-- An error leaves the graph as it was. -/
def Unspoiled (g : Graph) (x : Except GraphError α × Graph) : Prop :=
  ∀ e, x.1 = .error e → x.2 = g

/-- What is refused with the graph as it was is unspoiled. -/
theorem unspoiled_error (g : Graph) (e : GraphError) :
    Unspoiled g ((.error e, g) : Except GraphError α × Graph) :=
  fun _ _ => rfl

/-- What goes through is unspoiled, whatever it leaves. -/
theorem unspoiled_ok (g g' : Graph) (a : α) : Unspoiled g (.ok a, g') :=
  fun _ hError => by cases hError

/-- **An insertion that is refused has written nothing.** -/
theorem unspoiled_tryInsert (g : Graph) (target : Holder) (index : Nat) (id : ItemId) :
    Unspoiled g (g.tryInsert target index id) := by
  unfold tryInsert
  split
  next => exact unspoiled_error g _
  next n _ =>
    split
    next => exact unspoiled_error g _
    next =>
      -- The target is asked last, and only then the list and the link are written.
      split
      next => exact unspoiled_error g _
      next => exact unspoiled_ok g _ ()

/-- **A removal that is refused has written nothing.** -/
theorem unspoiled_tryRemove (g : Graph) (holder : Holder) (id : ItemId) :
    Unspoiled g (g.tryRemove holder id) := by
  unfold tryRemove
  dsimp only
  split
  next => exact unspoiled_ok g _ ()
  next => exact unspoiled_error g _

/-- **An item that cannot be detached is where it was.** -/
theorem unspoiled_tryDetach (g : Graph) (id : ItemId) : Unspoiled g (g.tryDetach id) := by
  unfold tryDetach
  split
  next => exact unspoiled_ok g _ none
  next holder _ =>
    have hRemove := unspoiled_tryRemove g holder id
    revert hRemove
    rcases g.tryRemove holder id with ⟨e | ⟨⟩, g'⟩
    · intro hRemove
      obtain rfl := hRemove e rfl
      exact unspoiled_error g' e
    · exact fun _ => unspoiled_ok g g' (some holder)

/-! ## §2. What an operation leaves, by its result. -/

/-- The graph after an operation, which is the one before it if the operation was refused. -/
def attempt (g : Graph) : Except GraphError Graph → Graph
  | .ok g' => g'
  | .error _ => g

/-- An operation with a graph, by its result alone. -/
def leave (g : Graph) : Except GraphError Graph → Except GraphError Unit × Graph
  | .ok g' => (.ok (), g')
  | .error e => (.error e, g)

/-- An attempt keeps the graph that is left. -/
theorem attempt_eq (g : Graph) (result : Except GraphError Graph) :
    g.attempt result = (g.leave result).2 := by
  cases result <;> rfl

/-- Where errors leave the graph as it was, the result says all. -/
theorem Unspoiled.eq_leave {x : Except GraphError Unit × Graph} (h : Unspoiled g x) :
    x = g.leave (settle x) := by
  obtain ⟨e | ⟨⟩, g'⟩ := x
  · obtain rfl := h e rfl
    rfl
  · rfl

/-- An insertion leaves what it gives, or the graph as it was. -/
theorem tryInsert_eq (g : Graph) (target : Holder) (index : Nat) (id : ItemId) :
    g.tryInsert target index id = g.leave (g.insert target index id) :=
  (unspoiled_tryInsert g target index id).eq_leave

/-- An addition leaves what it gives, or the graph as it was. -/
theorem tryAdd_eq (g : Graph) (target : Holder) (id : ItemId) :
    g.tryAdd target id = g.leave (g.add target id) :=
  (unspoiled_tryInsert g target _ id).eq_leave

/-- A removal leaves what it gives, or the graph as it was. -/
theorem tryRemove_eq (g : Graph) (holder : Holder) (id : ItemId) :
    g.tryRemove holder id = g.leave (g.remove holder id) :=
  (unspoiled_tryRemove g holder id).eq_leave

/-- An addition that goes through leaves what it gives. -/
theorem tryAdd_of_ok {target : Holder} (h : g.add target id = .ok g') :
    g.tryAdd target id = (.ok (), g') := by
  rw [tryAdd_eq, h]
  rfl

/-- A removal that goes through leaves what it gives. -/
theorem tryRemove_of_ok {holder : Holder} (h : g.remove holder id = .ok g') :
    g.tryRemove holder id = (.ok (), g') := by
  rw [tryRemove_eq, h]
  rfl

/-- Taking an item from its holder leaves what it gives, or the graph as it was. -/
theorem tryDetach_eq (g : Graph) (id : ItemId) :
    g.tryDetach id = match g.detach id with
      | .ok (former, g') => (.ok former, g')
      | .error e => (.error e, g) := by
  have hDetach := unspoiled_tryDetach g id
  unfold detach
  revert hDetach
  rcases g.tryDetach id with ⟨e | former, g'⟩
  · intro hDetach
    obtain rfl := hDetach e rfl
    rfl
  · exact fun _ => rfl

/-! ## §3. The results, written out. -/

/-- An insertion makes its checks in order: the item is there, lies nowhere, and may lie in the
target. Only then are the list and the link written. -/
theorem insert_eq (g : Graph) (target : Holder) (index : Nat) (id : ItemId) :
    g.insert target index id = match g.node? id with
      | none => .error .notFound
      | some n =>
        if n.holder.isSome then .error .alreadyOwned
        else do
          g.checkTarget target id
          return (g.setContents target (insertAt index id (g.contents target))).setHolder id
            target := by
  unfold insert tryInsert
  cases g.node? id with
  | none => rfl
  | some n =>
    dsimp only
    cases n.holder with
    | some holder => rfl
    | none =>
      dsimp only [Option.isSome_none]
      cases g.checkTarget target id <;> rfl

/-- An addition is an insertion behind all that the target holds. -/
theorem add_eq (g : Graph) (target : Holder) (id : ItemId) :
    g.add target id = g.insert target (g.contents target).length id :=
  rfl

/-- A removal asks whether the item is in the list. Only then are the list and the link written. -/
theorem remove_eq (g : Graph) (holder : Holder) (id : ItemId) :
    g.remove holder id = if (g.contents holder).contains id then
        .ok ((g.setContents holder ((g.contents holder).erase id)).setHolder id none)
      else .error .notFound := by
  unfold remove tryRemove
  dsimp only
  split <;> rfl

/-- An item is removed from the holder it is linked to, if it is linked to one. -/
theorem detach_eq (g : Graph) (id : ItemId) :
    g.detach id = match g.parent? id with
      | none => .ok (none, g.setHolder id none)
      | some holder => (g.remove holder id).map fun g => (some holder, g) := by
  unfold detach tryDetach
  cases g.parent? id with
  | none => rfl
  | some holder =>
    dsimp only
    rw [tryRemove_eq]
    cases g.remove holder id <;> rfl

/-- A move by the results of its steps: what the target does not take goes back. -/
theorem move_eq (g : Graph) (id : ItemId) (target : Holder) :
    g.move id target = match g.checkMove id target with
      | .error e => (.refused e, g)
      | .ok () =>
        match g.detach id with
        | .error e => (.refused e, g)
        | .ok (former, g') =>
          match g'.add target id with
          | .ok g'' => (.moved, g'')
          | .error e =>
            match former with
            | none => (.returned e, g')
            | some holder =>
              match g'.add holder id with
              | .ok g'' => (.returned e, g'')
              | .error e' => (.lost e e', g') := by
  unfold move
  cases g.checkMove id target with
  | error e => rfl
  | ok =>
    dsimp only
    rw [tryDetach_eq]
    cases g.detach id with
    | error e => rfl
    | ok result =>
      obtain ⟨former, g'⟩ := result
      dsimp only
      rw [tryAdd_eq]
      -- What the target refuses is put back, if it came from anywhere.
      cases g'.add target id with
      | ok g'' => rfl
      | error e =>
        cases former with
        | none => rfl
        | some holder =>
          dsimp only [leave]
          rw [tryAdd_eq]
          cases g'.add holder id <;> rfl

/-- **What a move leaves**: the graph as it was, or the item is out, or it is out and was put
in once, at the target or back where it came from. -/
theorem move_cases (g : Graph) (id : ItemId) (target : Holder) :
    (g.move id target).2 = g
    ∨ ∃ former g', g.detach id = .ok (former, g') ∧
        ((g.move id target).2 = g'
          ∨ ∃ holder, (holder = target ∨ former = some holder)
            ∧ g'.add holder id = .ok (g.move id target).2) := by
  rw [move_eq]
  split
  next => exact .inl rfl
  next =>
    split
    next => exact .inl rfl
    next former g' hDetach =>
      refine .inr ⟨former, g', hDetach, ?_⟩
      split
      next hAdd => exact .inr ⟨target, .inl rfl, hAdd⟩
      next =>
        -- The target has refused: the rest is the way back.
        split
        next => exact .inl rfl
        next holder =>
          split
          next hBack => exact .inr ⟨holder, .inr rfl, hBack⟩
          next => exact .inl rfl

end Graph

end Homestead

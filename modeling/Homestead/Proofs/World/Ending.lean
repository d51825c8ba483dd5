/-
  Homestead.Proofs.World.Ending
  ─────────────────────────────
  **STARTING AND FINISHING CALL EACH OTHER, AND END.**

  To start the time of an item that has none left is to finish it, and to
  finish an item is to start what it becomes.  Types may decay in a circle,
  so the types do not show that this ends.  What does is the time that is
  left: an item is finished because it has none, and what it becomes is
  asked to start only if it has some.  So a start that comes out of a
  finish never leads to another one.

  The two requests are written out here as they call each other, with what
  each of them does by itself.  That every run of them ends, in the world
  that `startDecay` and `finishDecay` name, is shown for any item and for
  any catalog, also for one with circles, with targets that are missing,
  and with types of which the time stands still.

  Main results:
    * `Answers.unique` — there is one way for a request to go;
    * `answers_finish`, `answers_start` — there is one, and it is short;
    * `request_ends` — how it ends.
-/
import Homestead.Proofs.Graph.Moving
import Homestead.Proofs.World.DecayList

namespace Homestead

namespace World

/-! ## §1. Requests and deeds. -/

/-- What is asked for an item. -/
inductive Request where
  /-- Its time is to start. -/
  | start
  /-- It is to be finished. -/
  | finish

/-- A single thing that is done to an item. -/
inductive Deed where
  /-- Its time runs from now on, and it stands at the end of the decay list. -/
  | list
  /-- It becomes an item of another type. -/
  | turn (target : TypeId)
  /-- It is taken out of the world. -/
  | remove
  deriving DecidableEq

/-- The world once a thing is done to an item of it. -/
def Deed.make (id : ItemId) (w : World) : Deed → World
  | .list => w.enlist id
  | .turn target => w.decayed id target
  | .remove => w.vanish id

/-- The world once some things are done to an item of it, one after the other. -/
def doAll (w : World) (id : ItemId) (deeds : List Deed) : World :=
  deeds.foldl (Deed.make id) w

/-- The world that a request leads to. -/
def Request.grant (id : ItemId) (w : World) : Request → World
  | .start => w.startDecay id
  | .finish => w.finishDecay id

/-- What a request does by itself, and the request that it ends with, if it ends with one. -/
def Request.body (id : ItemId) (w : World) : Request → List Deed × Option Request
  | .start =>
    if !w.mayStart id then ([], none)
    else if w.durationOf id ≤ 0 then ([], some .finish)
    else ([.list], none)
  | .finish =>
    match w.decayTarget? id with
    | none => ([.remove], none)
    | some target =>
      -- Whether it may start is looked at by the request that follows.
      ([.turn target], if 0 < (w.decayed id target).durationOf id then some .start else none)

/-- A request has ended in the world `w'`: the requests that were made on the way, with itself as
the first, and what was done by them. -/
inductive Answers (id : ItemId) : World → Request → List Request → List Deed → World → Prop where
  /-- It asks for nothing more. -/
  | last {w : World} {r : Request} {deeds : List Deed} (hBody : r.body id w = (deeds, none)) :
    Answers id w r [r] deeds (w.doAll id deeds)
  /-- It ends with another request. -/
  | next {w w' : World} {r next : Request} {deeds later : List Deed} {rest : List Request}
    (hBody : r.body id w = (deeds, some next))
    (hRest : Answers id (w.doAll id deeds) next rest later w') :
    Answers id w r (r :: rest) (deeds ++ later) w'

variable {w w' w'' : World} {id : ItemId} {r : Request} {calls calls' : List Request}
  {deeds deeds' : List Deed}

/-! ## §2. One way to go. -/

/-- **There is one way for a request to go.** -/
theorem Answers.unique (h : Answers id w r calls deeds w') (h' : Answers id w r calls' deeds' w'') :
    calls' = calls ∧ deeds' = deeds ∧ w'' = w' := by
  induction h generalizing calls' deeds' with
  | last hBody =>
    -- Both follow the same body, which goes on or does not.
    cases h' with
    | last hBody' =>
      obtain ⟨rfl, -⟩ := Prod.mk.inj (hBody.symm.trans hBody')
      exact ⟨rfl, rfl, rfl⟩
    | next hBody' _ => cases (Prod.mk.inj (hBody.symm.trans hBody')).2
  | next hBody hRest ih =>
    cases h' with
    | last hBody' => cases (Prod.mk.inj (hBody.symm.trans hBody')).2
    | next hBody' hRest' =>
      obtain ⟨rfl, hNext⟩ := Prod.mk.inj (hBody.symm.trans hBody')
      obtain rfl := Option.some_inj.1 hNext
      obtain ⟨rfl, rfl, rfl⟩ := ih hRest'
      exact ⟨rfl, rfl, rfl⟩

/-- All that has happened is in the deeds. -/
theorem Answers.eq_doAll (h : Answers id w r calls deeds w') : w' = w.doAll id deeds := by
  induction h with
  | last _ => rfl
  | next _ _ ih =>
    rw [ih]
    exact List.foldl_append.symm

/-! ## §3. Every request is answered. -/

/-- **What has time left is started by one request**, whether it may start or not. -/
theorem answers_start_of_left (hLeft : 0 < w.durationOf id) :
    ∃ deeds : List Deed, deeds.Sublist [.list]
      ∧ Answers id w .start [.start] deeds (if w.mayStart id then w.enlist id else w) := by
  -- The request ends at once: it is passed on only when no time is left.
  have hNotOver : ¬w.durationOf id ≤ 0 := by omega
  by_cases hMay : w.mayStart id = true
  · have hBody : Request.start.body id w = ([.list], none) := by
      simp [Request.body, hMay, hNotOver]
    rw [if_pos hMay]
    exact ⟨[.list], .refl _, .last hBody⟩
  · have hBody : Request.start.body id w = ([], none) := by
      simp [Request.body, hMay]
    rw [if_neg hMay]
    exact ⟨[], List.nil_sublist _, .last hBody⟩

/-- What is done to an item on the way: it is taken out of the world, or it is given another type
once at most and listed once at most. -/
def AtMostOneTurn (deeds : List Deed) : Prop :=
  deeds = [.remove] ∨ ∃ target, deeds.Sublist [.turn target, .list]

/-- **To finish an item takes two requests at most.** -/
theorem answers_finish (w : World) (id : ItemId) :
    ∃ calls deeds, calls.Sublist [.finish, .start] ∧ AtMostOneTurn deeds
      ∧ Answers id w .finish calls deeds (w.finishDecay id) := by
  unfold finishDecay
  cases hTarget : w.decayTarget? id with
  | none =>
    have hBody : Request.finish.body id w = ([.remove], none) := by
      simp only [Request.body, hTarget]
    exact ⟨[.finish], [.remove], .cons_cons _ (List.nil_sublist _), .inl rfl, .last hBody⟩
  | some target =>
    show ∃ calls deeds, _ ∧ _ ∧ Answers id w .finish calls deeds
      (if (decide ((w.decayed id target).durationOf id > 0)
          && (w.decayed id target).mayStart id) = true then
        (w.decayed id target).enlist id else w.decayed id target)
    by_cases hLeft : 0 < (w.decayed id target).durationOf id
    · -- What it has become has time left, so that the second request is the last one.
      obtain ⟨later, hLater, hStarted⟩ := answers_start_of_left hLeft
      have hBody : Request.finish.body id w = ([.turn target], some .start) := by
        simp only [Request.body, hTarget, if_pos hLeft]
      rw [decide_eq_true hLeft, Bool.true_and]
      exact ⟨[.finish, .start], .turn target :: later, .refl _, .inr ⟨target, hLater.cons_cons _⟩,
        .next hBody hStarted⟩
    · have hBody : Request.finish.body id w = ([.turn target], none) := by
        simp only [Request.body, hTarget, if_neg hLeft]
      rw [decide_eq_false hLeft, Bool.false_and]
      exact ⟨[.finish], [.turn target], .cons_cons _ (List.nil_sublist _),
        .inr ⟨target, .cons_cons _ (List.nil_sublist _)⟩, .last hBody⟩

/-- **To start the time of an item takes three requests at most.** -/
theorem answers_start (w : World) (id : ItemId) :
    ∃ calls deeds, calls.Sublist [.start, .finish, .start] ∧ AtMostOneTurn deeds
      ∧ Answers id w .start calls deeds (w.startDecay id) := by
  by_cases hMay : w.mayStart id = true
  · by_cases hOver : w.durationOf id ≤ 0
    · -- What follows is a finish, and if that leads to a start, then of something with time left.
      obtain ⟨calls, deeds, hCalls, hDeeds, hFinished⟩ := answers_finish w id
      have hBody : Request.start.body id w = ([], some .finish) := by
        simp [Request.body, hMay, hOver]
      have hStart : w.startDecay id = w.finishDecay id := by
        simp [startDecay, hMay, hOver]
      rw [hStart]
      exact ⟨.start :: calls, deeds, hCalls.cons_cons _, hDeeds, .next hBody hFinished⟩
    · have hLeft : 0 < w.durationOf id := by omega
      obtain ⟨deeds, hDeeds, hStarted⟩ := answers_start_of_left hLeft
      have hStart : w.startDecay id = if w.mayStart id then w.enlist id else w := by
        simp [startDecay, hMay, hOver]
      rw [hStart]
      exact ⟨[.start], deeds, .cons_cons _ (List.nil_sublist _), .inr ⟨0, hDeeds.cons _⟩, hStarted⟩
  · have hBody : Request.start.body id w = ([], none) := by
      simp [Request.body, hMay]
    have hStart : w.startDecay id = w := by
      simp [startDecay, hMay]
    rw [hStart]
    exact ⟨[.start], [], .cons_cons _ (List.nil_sublist _), .inr ⟨0, List.nil_sublist _⟩,
      .last hBody⟩

/-! ## §4. What is done on the way. -/

/-- What a request can do by itself: an item that it lists has time left, and nothing follows; what
it turns an item into is a type that the catalog has. -/
theorem Request.body_cases {next : Option Request} (h : r.body id w = (deeds, next)) :
    deeds = [] ∨ deeds = [.remove] ∨ (deeds = [.list] ∧ 0 < w.durationOf id ∧ next = none)
      ∨ ∃ target, deeds = [.turn target] ∧ w.decayTarget? id = some target := by
  cases r with
  -- A start does nothing, or finishes the item at once, or lists it with the time that it has left.
  | start =>
    simp only [Request.body] at h
    split_ifs at h with hMay hOver
    · exact .inl (Prod.mk.inj h).1.symm
    · exact .inl (Prod.mk.inj h).1.symm
    · obtain ⟨hDeeds, hNext⟩ := Prod.mk.inj h
      exact .inr (.inr (.inl ⟨hDeeds.symm, by omega, hNext.symm⟩))
  | finish =>
    simp only [Request.body] at h
    split at h
    next => exact .inr (.inl (Prod.mk.inj h).1.symm)
    next target hTarget => exact .inr (.inr (.inr ⟨target, (Prod.mk.inj h).1.symm, hTarget⟩))

/-- No deed writes the catalog. -/
theorem catalog_make (id : ItemId) (w : World) (d : Deed) : (d.make id w).catalog = w.catalog := by
  cases d with
  | list => rfl
  | turn target => exact catalog_decayed w id target
  | remove => exact catalog_vanish w id

/-- A deed is done to one item. -/
theorem item?_make_of_ne {j : ItemId} (hj : j ≠ id) (w : World) (d : Deed) :
    (d.make id w).graph.item? j = w.graph.item? j := by
  cases d with
  | list => exact (item?_enlist w id j).trans (if_neg hj)
  | turn target => exact (item?_decayed w id j target).trans (if_neg hj)
  | remove => exact item?_vanish w id j

/-- A deed puts the item on the list, or leaves the list. -/
theorem decaying_make (id : ItemId) (w : World) (d : Deed) :
    (d.make id w).decaying = w.decaying ++ if d = .list then [id] else [] := by
  cases d with
  | list => rfl
  | turn target => exact (decaying_decayed w id target).trans (List.append_nil _).symm
  | remove => exact (decaying_vanish w id).trans (List.append_nil _).symm

/-- The type that an item is of once a thing is done to it. -/
def Deed.typeAfter (former : TypeId) : Deed → TypeId
  | .turn target => target
  | _ => former

/-- A deed turns the item into another type, or leaves its type. -/
theorem typeId_make (id : ItemId) (w : World) (d : Deed) :
    ((d.make id w).graph.item? id).map (·.typeId)
      = (w.graph.item? id).map fun i => d.typeAfter i.typeId := by
  cases d with
  | list =>
    show ((w.enlist id).graph.item? id).map (·.typeId) = _
    rw [item?_enlist, if_pos rfl, Option.map_map]
    rfl
  | turn target =>
    show ((w.decayed id target).graph.item? id).map (·.typeId) = _
    rw [item?_decayed, if_pos rfl, Option.map_map]
    -- The time that starts anew is no part of the type.
    congr 1
    funext i
    exact i.typeId_become w.catalog target
  | remove =>
    show ((w.vanish id).graph.item? id).map (·.typeId) = _
    rw [item?_vanish]
    rfl

/-- What is done to an item, one thing after the other, reaches no other item, and no type of the
catalog; the item is added to the list as often as it is listed, and is of the type that it was last
turned into. -/
theorem doAll_spec (w : World) (id : ItemId) (deeds : List Deed) :
    (w.doAll id deeds).catalog = w.catalog
      ∧ (∀ j, j ≠ id → (w.doAll id deeds).graph.item? j = w.graph.item? j)
      ∧ (w.doAll id deeds).decaying = w.decaying ++ List.replicate (deeds.count .list) id
      ∧ ((w.doAll id deeds).graph.item? id).map (·.typeId)
        = (w.graph.item? id).map fun i => deeds.foldl Deed.typeAfter i.typeId := by
  -- Along the deeds, of which the first one leads to another world.
  induction deeds generalizing w with
  | nil => exact ⟨rfl, fun _ _ => rfl, (List.append_nil _).symm, rfl⟩
  | cons d deeds ih =>
    obtain ⟨hCatalog, hOthers, hList, hType⟩ := ih (d.make id w)
    refine ⟨hCatalog.trans (catalog_make id w d),
      fun j hj => (hOthers j hj).trans (item?_make_of_ne hj w d), ?_, ?_⟩
    · show ((d.make id w).doAll id deeds).decaying = _
      rw [hList, decaying_make, List.append_assoc, List.count_cons]
      by_cases hd : d = .list
      · simp [hd, List.replicate_succ]
      · simp [hd]
    · show (((d.make id w).doAll id deeds).graph.item? id).map (·.typeId) = _
      have hFirst := congrArg (Option.map fun former => deeds.foldl Deed.typeAfter former)
        (typeId_make id w d)
      rw [Option.map_map, Option.map_map] at hFirst
      exact hType.trans hFirst

/-- An item that is listed has the time that it had. -/
theorem durationOf_enlist (w : World) (id : ItemId) :
    (w.enlist id).durationOf id = w.durationOf id := by
  unfold durationOf
  rw [item?_enlist, if_pos rfl, Option.map_map]
  congr 2
  funext i
  exact i.duration_setDecayState .running

/-- **An item that is listed on the way** has time left in the end. -/
theorem Answers.left_of_listed (h : Answers id w r calls deeds w') (hMem : Deed.list ∈ deeds) :
    0 < w'.durationOf id := by
  induction h with
  | @last w r deeds hBody =>
    obtain rfl | rfl | ⟨rfl, hLeft, -⟩ | ⟨target, rfl, -⟩ := Request.body_cases hBody
    · simp at hMem
    · simp at hMem
    · exact hLeft.trans_eq (durationOf_enlist w id).symm
    · simp at hMem
  | @next w w' r next deeds later rest hBody _ ih =>
    -- Nothing follows a request that lists the item, so this one did not.
    rcases List.mem_append.1 hMem with hHere | hLater
    · obtain rfl | rfl | ⟨-, -, hNone⟩ | ⟨target, rfl, -⟩ := Request.body_cases hBody
      · simp at hHere
      · simp at hHere
      · cases hNone
      · simp at hHere
    · exact ih hLater

/-- **What an item is turned into on the way** is a type that the catalog has. -/
theorem Answers.known_of_turned (h : Answers id w r calls deeds w') {target : TypeId}
    (hMem : Deed.turn target ∈ deeds) : (w.catalog.get? target).isSome := by
  -- The body of a request turns an item only into the target of its type, which is looked up first.
  have hBodies : ∀ {w : World} {r : Request} {deeds : List Deed} {next : Option Request},
      r.body id w = (deeds, next) → Deed.turn target ∈ deeds →
        (w.catalog.get? target).isSome := by
    intro w r deeds next hBody hHere
    obtain rfl | rfl | ⟨rfl, -, -⟩ | ⟨target', rfl, hTarget⟩ := Request.body_cases hBody
    · simp at hHere
    · simp at hHere
    · simp at hHere
    · obtain rfl : target = target' := by simpa using hHere
      obtain ⟨_, _, t, _, _, _, _, ht⟩ := decayTarget?_eq_some hTarget
      rw [ht]
      rfl
  induction h with
  | last hBody => exact hBodies hBody hMem
  | @next w _ _ _ deeds _ _ hBody _ ih =>
    rcases List.mem_append.1 hMem with hHere | hLater
    · exact hBodies hBody hHere
    · rw [← (doAll_spec w id deeds).1]
      exact ih hLater

/-! ## §5. How a request ends. -/

/-- An item that is taken out of a world where links and lists agree lies nowhere, and nothing else
is moved. -/
theorem rehung_vanish (hw : w.graph.Consistent) (hid : (w.graph.node? id).isSome) :
    Graph.Rehung w.graph (w.vanish id).graph id (w.graph.parent? id) none := by
  obtain ⟨g', hDetach, hRehung⟩ := hw.detach_eq hid
  rw [vanish_eq, hDetach]
  exact hRehung

/-- Where the item is removed, nothing else is done. -/
theorem AtMostOneTurn.eq_of_removed (h : AtMostOneTurn deeds) (hMem : Deed.remove ∈ deeds) :
    deeds = [.remove] := by
  obtain hRemoved | ⟨target, hTurned⟩ := h
  · exact hRemoved
  · simpa using hTurned.mem hMem

/-- The item is listed once at most. -/
theorem AtMostOneTurn.count_list_le (h : AtMostOneTurn deeds) : deeds.count .list ≤ 1 := by
  obtain rfl | ⟨target, hTurned⟩ := h
  · simp
  · simpa using hTurned.count_le Deed.list

/-- How a request ends: by the requests `calls`, which do `deeds` to the item, in the world `w'`. -/
structure Ends (id : ItemId) (w : World) (r : Request) (calls : List Request) (deeds : List Deed)
    (w' : World) : Prop where
  /-- It ends so. -/
  answers : Answers id w r calls deeds w'
  /-- It does not end otherwise. -/
  only : ∀ calls₁ deeds₁ w₁, Answers id w r calls₁ deeds₁ w₁ →
    calls₁ = calls ∧ deeds₁ = deeds ∧ w₁ = w'
  /-- A start may lead to a finish, and that to a start which is the last request. -/
  brief : calls.Sublist [.start, .finish, .start]
  /-- The item is taken out of the world, or it is given one other type at most and then listed once
  at most. -/
  once : AtMostOneTurn deeds
  /-- The item is there as before, and of the type that it was turned into, or of its own if it was
  turned into none. -/
  type : (w'.graph.item? id).map (·.typeId)
    = (w.graph.item? id).map fun i => deeds.foldl Deed.typeAfter i.typeId
  /-- What it was turned into is a type that the catalog has. -/
  known : ∀ target, .turn target ∈ deeds → (w.catalog.get? target).isSome
  /-- An item that is taken out of the world lies nowhere in the end, and nothing else is done. -/
  removed : .remove ∈ deeds → deeds = [.remove] ∧ (w.graph.Consistent → (w.graph.node? id).isSome →
    Graph.Rehung w.graph w'.graph id (w.graph.parent? id) none)
  /-- The decay list is the one that was there, or the item stands behind it and has time left. -/
  listed : (.list ∉ deeds ∧ w'.decaying = w.decaying)
    ∨ (.list ∈ deeds ∧ w'.decaying = w.decaying ++ [id] ∧ 0 < w'.durationOf id)
  /-- The other items are as before. -/
  others : ∀ j, j ≠ id → w'.graph.item? j = w.graph.item? j
  /-- The types are as before. -/
  catalog : w'.catalog = w.catalog

/-- A run that is short ends as it should. -/
theorem Answers.ends (h : Answers id w r calls deeds w')
    (hBrief : calls.Sublist [.start, .finish, .start]) (hOnce : AtMostOneTurn deeds) :
    Ends id w r calls deeds w' := by
  obtain ⟨hCatalog, hOthers, hList, hType⟩ := doAll_spec w id deeds
  rw [← h.eq_doAll] at hCatalog hOthers hList hType
  refine ⟨h, fun _ _ _ h₁ => h.unique h₁, hBrief, hOnce, hType, fun _ => h.known_of_turned, ?_, ?_,
    hOthers, hCatalog⟩
  · intro hMem
    have hDeeds := hOnce.eq_of_removed hMem
    refine ⟨hDeeds, fun hw hid => ?_⟩
    rw [h.eq_doAll, hDeeds]
    exact rehung_vanish hw hid
  · -- The item is listed once or not at all.
    have hCount := hOnce.count_list_le
    by_cases hMem : Deed.list ∈ deeds
    · have hOne : deeds.count .list = 1 := by
        have := List.count_pos_iff.2 hMem
        omega
      rw [hOne] at hList
      exact .inr ⟨hMem, hList, h.left_of_listed hMem⟩
    · rw [List.count_eq_zero.2 hMem] at hList
      exact .inl ⟨hMem, hList.trans (List.append_nil _)⟩

/-- **Starting the time of an item ends, and so does finishing it**, whatever the item is and
whatever types the catalog lets decay to which.  Three requests are made at most.  The item is taken
out of the world, or it is given another type at most once; and if it stands on the decay list for
it, then with time left. -/
theorem request_ends (w : World) (id : ItemId) (r : Request) :
    ∃ calls deeds, Ends id w r calls deeds (r.grant id w) := by
  cases r with
  | start =>
    obtain ⟨calls, deeds, hBrief, hOnce, h⟩ := answers_start w id
    exact ⟨calls, deeds, h.ends hBrief hOnce⟩
  | finish =>
    obtain ⟨calls, deeds, hBrief, hOnce, h⟩ := answers_finish w id
    exact ⟨calls, deeds, h.ends (hBrief.cons _) hOnce⟩

/-- A torch that has burnt down is started: it becomes an ember, which is on the list, and not the
torch that embers become. -/
example : let w := (torchWorld.updateItem 0 (·.setNumber .duration 0)).startDecay 0
    w.decaying = [0] ∧ (w.graph.item? 0).map (·.typeId) = some 2 ∧ w.durationOf 0 = 5000 := by
  decide +kernel

end World

end Homestead

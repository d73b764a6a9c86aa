/-
**Whether pages are fresh when a frame begins.**

A frame of the map begins by choosing the pages anew if that was asked for.  The commands that set
switches, variables and self switches ask for it, and the command that erases an event takes its page
away at once.  The commands that give and take things, and those that give treasure, do not ask,
although a page can depend on a thing that the party holds.  So the pages are fresh at the beginning of
a frame exactly if a refresh was asked for, or if what the party has gained and lost since the pages
were last chosen makes no difference to them.

Main definitions:

* `Session.withItems` — a session in which the party holds given things;
* `Session.TracksPages` — the pages are due to be chosen, or are those for given things;
* `Session.RunsTo` — what commands, and lists of commands, lead to.

Main results:

* `Play.upheld_tracksPages` — **every command keeps track of the pages, up to things**;
* `Session.RunsTo.showsDuePages_iff` — **when a frame begins with fresh pages**.
-/
import EventLayer.Proofs.Lasting
import EventLayer.Proofs.Lockstep.Alike
import EventLayer.Proofs.Map.Erasing
import EventLayer.Proofs.Map.Pages

set_option autoImplicit false
set_option relaxedAutoImplicit false

namespace EventLayer

/-- What a party holds. -/
abbrev Things : Type := OrderedMap ItemKey Json.Number

namespace Session

/-- A session in which the party holds given things. -/
def withItems (items : Things) (s : Session) : Session := { s with stores.party.items := items }

/-- What the party holds. -/
def items (s : Session) : Things := s.stores.party.items

/-- Pages are to be chosen anew, or every event shows the page that is due with given things. -/
def TracksPages (items : Things) (s : Session) : Prop :=
  s.map.needsRefresh = true ∨ (s.withItems items).ShowsDuePages

theorem showsDuePages_ground (items : Things) (s : Session) :
    (s.ground.withItems items).ShowsDuePages ↔ (s.withItems items).ShowsDuePages := by
  have hevents : (s.ground.withItems items).map.eventList = s.map.eventList.map MapEvent.paged :=
    OrderedMap.values_mapValues _ _
  have hdue : ∀ e : MapEvent,
      e.paged.duePage s.game.database (s.ground.withItems items).stores =
        e.duePage s.game.database (s.withItems items).stores := fun e =>
    MapEvent.duePage_paging e s.game.database (s.withItems items).stores
  constructor
  · intro h e he
    exact (hdue e).symm.trans (h e.paged (hevents ▸ List.mem_map_of_mem he))
  · intro h e' he'
    rw [hevents] at he'
    obtain ⟨e, he, rfl⟩ := List.mem_map.mp he'
    exact (hdue e).trans (h e he)

theorem TracksPages.of_ground {items : Things} {s t : Session} (h : s.TracksPages items)
    (hground : t.ground = s.ground) : t.TracksPages items := by
  refine h.imp (fun hn => ?_) fun hshows => ?_
  · have hn' : t.ground.map.needsRefresh = true := by rw [hground]; exact hn
    exact hn'
  · rw [← showsDuePages_ground, hground]
    exact (showsDuePages_ground items s).mpr hshows

end Session

/-! ### Commands -/

namespace MapEvent

variable {db : Database} {stores stores' : Stores} {e e' : MapEvent}

/-- An erased event shows the page that is due, whatever the stores hold. -/
theorem duePage_erase (e : MapEvent) (db : Database) (stores : Stores) :
    e.erase.duePage db stores = .ok e.erase.pageIndex := by
  rw [duePage_of_erased e.erased_erase, pageIndex_erase]

end MapEvent

namespace Play

open Session

variable {items : Things}

/-- A command that ends by asking for a refresh leaves one asked for. -/
theorem keeps_requestRefresh (x : Play PUnit) :
    (do x; modify requestRefresh : Play PUnit).Keeps (TracksPages items) fun _ => True := by
  refine fun s _ => ⟨fun _ t ht => ?_, fun _ _ _ => trivial⟩
  obtain ⟨_, u, _, ht⟩ := bind_eq_ok ht
  cases ht
  exact Or.inl rfl

theorem keeps_changeVariables (d : Nat) (first last : Json) (op : VariableOp)
    (source : VariableSource) :
    (carryOutPlain d (.changeVariables first last op source)).Keeps (TracksPages items)
      fun _ => True := by
  refine fun s _ => ⟨fun _ t ht => ?_, fun _ _ _ => trivial⟩
  obtain ⟨value, u, -, ht⟩ := bind_eq_ok ht
  obtain ⟨low, -, ht⟩ := except_bind_eq_ok ht
  obtain ⟨high, -, ht⟩ := except_bind_eq_ok ht
  obtain ⟨_, v, -, ht⟩ := bind_eq_ok ht
  cases ht
  exact Or.inl rfl

theorem keeps_setSelfSwitch (d : Nat) (given : Except Fault (Json × Bool)) :
    (carryOutPlain d (.setSelfSwitch given)).Keeps (TracksPages items) fun _ => True := by
  refine fun s hs => ⟨fun _ t ht => ?_, fun _ _ _ => trivial⟩
  rw [carryOutPlain, get_bind_apply] at ht
  dsimp only at ht
  split at ht
  · obtain ⟨⟨channel, on⟩, -, ht⟩ := except_bind_eq_ok ht
    obtain ⟨key, -, ht⟩ := except_bind_eq_ok ht
    obtain ⟨_, v, -, ht⟩ := bind_eq_ok ht
    cases ht
    exact Or.inl rfl
  · cases ht
    exact hs

/-- An event that was erased shows no page, and the other events show what they showed. -/
theorem keeps_eraseEvent (id : Int) :
    (Play.eraseEvent id).Keeps (TracksPages items) fun _ => True := by
  refine fun s hs => ⟨fun _ t ht => ?_, fun _ _ _ => trivial⟩
  rw [eraseEvent_apply] at ht
  cases ht
  refine hs.imp (fun hn => hn) fun hshows w hw => ?_
  rcases OrderedMap.mem_values_modify hw with hother | ⟨e, rfl⟩
  · exact hshows w hother
  · exact e.duePage_erase _ _

/-- **Every command keeps track of the pages, up to things.** -/
theorem upheld_tracksPages (items : Things) : UpheldBetween (TracksPages items) fun _ => True where
  ground := fun hs hground => hs.of_ground hground
  fails := fun _ => trivial
  leave := fun _ _ => trivial
  setSwitches := fun _ _ _ _ => keeps_requestRefresh _
  changeVariables := keeps_changeVariables
  setSelfSwitch := keeps_setSelfSwitch
  eraseEvent := keeps_eraseEvent
  popped := fun hs => hs
  commonEvents := fun _ hs =>
    ⟨fun _ _ ht => (preserves_commonEvents fun _ _ _ h => h).of_ok hs ht, fun _ _ _ => trivial⟩

theorem refreshIfAsked_eq_ok {s t : Session} (h : refreshIfAsked s = .ok () t) :
    (s.map.needsRefresh = true ∧ t.ShowsDuePages ∧ t.stores = s.stores) ∨
      (s.map.needsRefresh = false ∧ t = s) := by
  rw [refreshIfAsked, get_bind_apply] at h
  split at h
  · next hn =>
      obtain ⟨hshows, -, hstores, -⟩ := refreshMap_eq_ok h
      exact Or.inl ⟨hn, hshows, hstores⟩
  · next hn =>
      cases h
      exact Or.inr ⟨by simpa using hn, rfl⟩

end Play

/-! ### Runs -/

namespace Session

open Play

/-- What single commands, command lists and the beginning of lists lead to from a session.  The things
are those that the party held when the pages were last chosen. -/
inductive RunsTo (s : Session) : Things → Session → Prop
  | start : s.RunsTo s.items s
  | command {items : Things} {t u : Session} (d : Nat) (i : Instruction) (next : Int) :
      s.RunsTo items t → carryOut d i t = .ok next u → s.RunsTo items u
  | setup {items : Things} {t u : Session} (list : Json) (event : Int) :
      s.RunsTo items t → setupInterpreter list event t = .ok () u → s.RunsTo items u
  | lists {items : Things} {t u : Session} :
      s.RunsTo items t → runInterpreter t = .ok () u → s.RunsTo items u
  | next {items : Things} {t u : Session} (begun : Bool) :
      s.RunsTo items t → startNext t = .ok begun u →
        s.RunsTo (if t.map.needsRefresh then t.items else items) u

variable {s t u : Session} {items : Things}

/-- A run keeps track of the pages. -/
theorem RunsTo.tracksPages (hs : s.ShowsDuePages) (h : s.RunsTo items t) : t.TracksPages items := by
  induction h with
  | start => exact Or.inr hs
  | @command items _ _ d i next _ hact ih =>
      have hkeeps := Both.keeps ((upheld_tracksPages items).commanded.carryOut d i)
      exact (hkeeps _ ih).1 _ _ hact
  | @setup items _ _ list event _ hact ih =>
      have hkeeps := Both.keeps ((upheld_tracksPages items).commanded.setupInterpreter list event)
      exact (hkeeps _ ih).1 _ _ hact
  | @lists items _ _ _ hact ih =>
      have hkeeps := Both.keeps (upheld_tracksPages items).commanded.runInterpreter
      exact (hkeeps _ ih).1 _ _ hact
  | @next items t u begun _ hact ih =>
      rw [startNext_eq] at hact
      obtain ⟨_, v, hv, hact⟩ := bind_eq_ok hact
      have hkeeps := Both.keeps
        (upheld_tracksPages (if t.map.needsRefresh then t.items else items)).beginning.startWaiting
      refine (hkeeps v ?_).1 _ _ hact
      rcases refreshIfAsked_eq_ok hv with ⟨hn, hshows, hstores⟩ | ⟨hn, rfl⟩
      · rw [if_pos hn, Session.items, ← hstores]
        exact Or.inr hshows
      · rw [if_neg (by simp [hn])]
        exact ih

/-- **When a frame begins with fresh pages.**  From a session in which every event shows the page that
is due, commands lead to one in which, after the check that opens a frame, every event does so again
exactly if a refresh was asked for, or if for no event the party's things make a difference to what
they were when the pages were last chosen. -/
theorem RunsTo.showsDuePages_iff (hs : s.ShowsDuePages) (h : s.RunsTo items t)
    (hu : refreshIfAsked t = .ok () u) :
    u.ShowsDuePages ↔ t.map.needsRefresh = true ∨ ∀ e ∈ t.map.eventList,
      e.duePage t.game.database t.stores = e.duePage t.game.database (t.withItems items).stores := by
  rcases refreshIfAsked_eq_ok hu with ⟨hn, hshows, -⟩ | ⟨hn, rfl⟩
  · exact ⟨fun _ => Or.inl hn, fun _ => hshows⟩
  · have htracked : (u.withItems items).ShowsDuePages :=
      (h.tracksPages hs).resolve_left (by simp [hn])
    constructor
    · intro hshows
      exact Or.inr fun e he => (hshows e he).trans (htracked e he).symm
    · rintro (hasked | hsame)
      · simp [hn] at hasked
      · intro e he
        exact (hsame e he).trans (htracked e he)

/-! ### A page that depends on a thing -/

/-- A game with one thing and one map; its event has a second page, for when the party holds one. -/
def tokenGame : Game where
  database := { items := .arr [.null, .obj [("id", 1)]] }
  mapFile := fun _ =>
    let second : Json := .obj [("conditions", .obj [("itemValid", true), ("itemId", 1)])]
    .ok (some (.obj [("events", .arr [.null,
      .obj [("id", 1), ("pages", .arr [.obj [("list", .arr [])], second])]])]))

/-- The game on its map, where nothing else has happened. -/
def onTokenMap : Session := (setupMap 1).after (Session.begin tokenGame {})

/-- A command of the editor, as it stands in a list. -/
def listed (code : Int) (parameters : List Json) : Json :=
  .arr [.obj [("code", .int code), ("indent", 0), ("parameters", .arr parameters)]]

/-- The game after a list of the map's event. -/
def afterList (list : Json) : Session :=
  runInterpreter.after ((setupInterpreter list 1).after onTokenMap)

/-- Switch 1 is turned on. -/
def switchList : Json := listed 121 [1, 1, 0]

/-- The party is given one of the things. -/
def giftList : Json := listed 126 [1, 0, 0, 1]

theorem runsTo_afterList {list : Json} (hsetup : (setupInterpreter list 1).succeeds onTokenMap = true)
    (hrun : runInterpreter.succeeds ((setupInterpreter list 1).after onTokenMap) = true) :
    onTokenMap.RunsTo onTokenMap.items (afterList list) :=
  .lists (.setup list 1 .start (eq_ok_of_succeeds hsetup)) (eq_ok_of_succeeds hrun)

theorem showsDuePages_onTokenMap : onTokenMap.ShowsDuePages := by decide +kernel

/-- After a switch was turned on, a frame begins with fresh pages. -/
theorem showsDuePages_afterSwitch : ∃ u, refreshIfAsked (afterList switchList) = .ok () u ∧
    u.ShowsDuePages := by
  have hrun : onTokenMap.RunsTo onTokenMap.items (afterList switchList) :=
    runsTo_afterList (by decide +kernel) (by decide +kernel)
  have hcheck : refreshIfAsked.succeeds (afterList switchList) = true := by decide +kernel
  have hasked : (afterList switchList).map.needsRefresh = true := by decide +kernel
  exact ⟨_, eq_ok_of_succeeds hcheck, (RunsTo.showsDuePages_iff showsDuePages_onTokenMap hrun
    (eq_ok_of_succeeds hcheck)).mpr (Or.inl hasked)⟩

/-- After the party was given the thing, a frame begins with a page that is not due. -/
theorem not_showsDuePages_afterGift : ∃ u, onTokenMap.ShowsDuePages ∧
    onTokenMap.RunsTo onTokenMap.items (afterList giftList) ∧
      refreshIfAsked (afterList giftList) = .ok () u ∧ ¬u.ShowsDuePages := by
  have hrun : onTokenMap.RunsTo onTokenMap.items (afterList giftList) :=
    runsTo_afterList (by decide +kernel) (by decide +kernel)
  have hcheck : refreshIfAsked.succeeds (afterList giftList) = true := by decide +kernel
  refine ⟨_, showsDuePages_onTokenMap, hrun, eq_ok_of_succeeds hcheck, ?_⟩
  decide +kernel

end Session

end EventLayer

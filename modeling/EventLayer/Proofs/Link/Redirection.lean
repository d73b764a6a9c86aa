/-
**Commands that follow a link.**

Four commands act for an event that the command list may be linked to.  The test of a self switch
and the command that sets one ask whether the link can still be followed, and turn to the list's own
event where it cannot.  The call of a common event and the erasing of an event take the linked event
as it is.  So the four go to one event as long as the linked one stands, and part when it has been
erased behind the list's back.

Main definitions:

* `Session.SwitchesFor`, `Session.CallsFor`, `Session.ErasesOnly` — the event that a command goes to.

Main results:

* `Play.callee_eq_iff` — when the linked event is the one that the list acts for;
* `Play.redirections` — **where the four commands go, and when they agree**.
-/
import EventLayer.Proofs.Map.Commons
import EventLayer.Proofs.Map.Erasing

set_option autoImplicit false
set_option relaxedAutoImplicit false

namespace EventLayer

/-! ### The event that a command goes to -/

namespace Session

open Play

/-- The list at a depth tests and sets the self switches of an entity. -/
structure SwitchesFor (s : Session) (d : Nat) (own : Scope) : Prop where
  test : ∀ (channel : Json) (on : Bool), channel.isKey = true →
    Play.test d (.selfSwitch channel on) s =
      .ok (s.stores.selfSwitches.isOn (own.key channel) == on) s
  set : ∀ (channel : Json) (on : Bool), channel.isKey = true →
    carryOutPlain d (.setSelfSwitch (.ok (channel, on))) s =
      .ok () (s.setSelfSwitch (own.key channel) on).requestRefresh

/-- A common event that the list at a depth calls acts for an event of the current map. -/
def CallsFor (s : Session) (d : Nat) (event : Int) : Prop :=
  ∀ (id entry : Json) (commands : List EventCommand),
    s.game.database.commonEvent? id = some entry →
    (EventCommand.readList (CommonEvent.listOf entry)).result = .ok commands →
      ∃ t, carryOutPlain d (.callCommon id) s = .ok () t ∧ t.map = s.map ∧
        (t.frame (d + 1)).commands = some commands ∧ t.resolve (d + 1) = ⟨s.map.id, event⟩

/-- The list at a depth erases an event of the current map, and no other. -/
def ErasesOnly (s : Session) (d : Nat) (event : Int) : Prop :=
  ∃ t, carryOutPlain d .eraseEvent s = .ok () t ∧ t.event? event = (s.event? event).map MapEvent.erase ∧
    ∀ id, id ≠ event → t.event? id = s.event? id

/-- The link of the list at a depth is unset, or leads to an event of the current map. -/
def StaysOnMap (s : Session) (d : Nat) : Prop :=
  (s.frame d).link.isSet = true → s.isLocal (s.frame d).link = true

/-- The list at a depth acts for an event of the current map. -/
def ActsOnMap (s : Session) (d : Nat) : Prop :=
  0 < (s.resolve d).entity ∧ (s.resolve d).map.isInt s.map.id = true

end Session

theorem Json.isKey_of_isInt {v : Json} {n : Int} (h : v.isInt n = true) : v.isKey = true := by
  cases v with
  | arr items => cases h
  | obj fields => cases h
  | _ => rfl

theorem SelfKey.checked_of_isKey {scope : Scope} {channel : Json} (hmap : scope.map.isKey = true)
    (h : channel.isKey = true) : (scope.key channel).checked = .ok (scope.key channel) := by
  have hentity : (Json.int scope.entity).isKey = true := rfl
  unfold checked Scope.key SelfKey.of
  simp only [hmap, hentity, h, Bool.and_self, if_true]

namespace Play

open Session

variable {s : Session} {d : Nat}

/-! ### Self switches -/

/-- Self switches are those of the entity that the list acts for. -/
theorem switchesFor_resolve (h : s.ActsOnMap d) : s.SwitchesFor d (s.resolve d) := by
  obtain ⟨hpos, hmap⟩ := h
  have hkey := Json.isKey_of_isInt hmap
  constructor
  · intro channel on hchannel
    have hchecked := SelfKey.checked_of_isKey hkey hchannel
    rw [test, get_bind_apply]
    dsimp only
    rw [if_neg (by omega : ¬(s.resolve d).entity ≤ 0), hchecked]
    rfl
  · intro channel on hchannel
    have hchecked := SelfKey.checked_of_isKey hkey hchannel
    rw [carryOutPlain, get_bind_apply]
    dsimp only
    rw [if_pos hpos]
    change ((liftM ((s.resolve d).key channel).checked : Play SelfKey) >>= fun key => do
      modify (Session.setSelfSwitch key on)
      modify requestRefresh) s = _
    rw [hchecked]
    rfl

/-! ### Common events -/

theorem nested_of_isRunning (h : (s.frame d).isRunning = true) : d ≤ s.interpreter.nested.length := by
  cases d with
  | zero => omega
  | succ d =>
      by_cases hd : d < s.interpreter.nested.length
      · omega
      · have hnone : s.frame (d + 1) = {} := by
          simp only [Session.frame, Interpreter.frame, List.getD_eq_getElem?_getD]
          rw [List.getElem?_eq_none (by omega)]
          rfl
        rw [hnone] at h
        cases h

/-- A common event acts for the linked event, whether or not that one stands. -/
theorem callsFor_callee (hrun : (s.frame d).isRunning = true) :
    s.CallsFor d (callee s (s.frame d)) := by
  intro id entry commands hentry hcommands
  have hdepth := nested_of_isRunning hrun
  let child : Frame :=
    { map := s.map.id, event := callee s (s.frame d), commands := some commands,
      table := WeightTable.build commands }
  let notices := s.notices ++ (EventCommand.readList (CommonEvent.listOf entry)).notices
  have hopen : openFrame (CommonEvent.listOf entry) (callee s (s.frame d)) s =
      .ok child { s with notices } := by
    rw [openFrame, get_bind_apply, bind_of_ok (lift_reading_of_ok hcommands s)]
    rfl
  have hcall : carryOutPlain d (.callCommon id) s =
      .ok () { s with notices, interpreter := s.interpreter.push d child } := by
    change callCommon d id s = _
    rw [callCommon, get_bind_apply, hentry]
    dsimp only
    rw [bind_of_ok hopen]
    rfl
  have hchild : ({ s with notices, interpreter := s.interpreter.push d child } : Session).frame
      (d + 1) = child := Interpreter.frame_push_self hdepth child
  refine ⟨_, hcall, rfl, ?_, ?_⟩
  · rw [hchild]
  · rw [resolve, hchild]
    rfl

/-! ### Erasing -/

/-- The linked event is erased, whether or not it stands. -/
theorem erasesOnly_callee (hstays : s.StaysOnMap d) (hacts : s.ActsOnMap d) :
    s.ErasesOnly d (callee s (s.frame d)) := by
  by_cases hset : (s.frame d).link.isSet = true
  · have hlocal := hstays hset
    have hcallee : callee s (s.frame d) = (s.frame d).link.event := by
      rw [callee, if_pos hset, if_pos hlocal]
    have herase : carryOutPlain d .eraseEvent s = .ok ()
        ((s.updateEvent (s.frame d).link.event MapEvent.erase).updateFrame d
          fun f => { f with link := {} }) := by
      change eraseAddressed d s = _
      rw [eraseAddressed, get_bind_apply, if_pos hset, if_neg (by simp [hlocal]),
        bind_of_ok (eraseEvent_apply _ s)]
      rfl
    rw [hcallee]
    refine ⟨_, herase, event?_updateEvent s _ _, ?_⟩
    intro id hid
    exact event?_updateEvent_of_ne (Ne.symm hid) s _
  · have hunset : (s.frame d).link.isSet = false := by simpa using hset
    have hcallee : callee s (s.frame d) = (s.frame d).event := callee_of_not_isSet hunset
    obtain ⟨hpos, hmap⟩ := hacts
    rw [resolve_of_not_isSet hunset] at hpos hmap
    have hown : 0 < (s.frame d).event ∧ (s.frame d).map = s.map.id := by
      refine ⟨hpos, ?_⟩
      simpa using hmap
    have herase : carryOutPlain d .eraseEvent s = .ok ()
        (s.updateEvent (s.frame d).event MapEvent.erase) := by
      change eraseAddressed d s = _
      rw [eraseAddressed, get_bind_apply, if_neg hset, if_pos hown, eraseEvent_apply]
    rw [hcallee]
    refine ⟨_, herase, event?_updateEvent s _ _, ?_⟩
    intro id hid
    exact event?_updateEvent_of_ne (Ne.symm hid) s _

/-! ### All four -/

/-- The linked event is the one that the list acts for, unless the link is stale. -/
theorem callee_eq_iff (hstays : s.StaysOnMap d) :
    callee s (s.frame d) = (s.resolve d).entity ↔
      ((s.frame d).link.isSet = true → s.linkHolds (s.frame d).link = true ∨
        (s.frame d).link.event = (s.frame d).event) := by
  by_cases hset : (s.frame d).link.isSet = true
  · have hcallee : callee s (s.frame d) = (s.frame d).link.event := by
      rw [callee, if_pos hset, if_pos (hstays hset)]
    rw [hcallee, resolve, resolveFrame]
    by_cases hholds : s.linkHolds (s.frame d).link = true
    · simp [hholds]
    · simp [hset, hholds]
  · have hunset : (s.frame d).link.isSet = false := by simpa using hset
    rw [callee_of_not_isSet hunset, resolve_of_not_isSet hunset]
    simp [hunset]

/-- **Where the four commands go, and when they agree.**  Self switches follow the link as long as its
event stands; common events and erasing follow it in any case.  They agree unless the linked event
is missing or erased and is not the list's own. -/
theorem redirections (hrun : (s.frame d).isRunning = true) (hstays : s.StaysOnMap d)
    (hacts : s.ActsOnMap d) :
    s.SwitchesFor d (s.resolve d) ∧ s.CallsFor d (callee s (s.frame d)) ∧
      s.ErasesOnly d (callee s (s.frame d)) ∧
        (callee s (s.frame d) = (s.resolve d).entity ↔
          ((s.frame d).link.isSet = true → s.linkHolds (s.frame d).link = true ∨
            (s.frame d).link.event = (s.frame d).event)) :=
  ⟨switchesFor_resolve hacts, callsFor_callee hrun, erasesOnly_callee hstays hacts,
    callee_eq_iff hstays⟩

/-! ### A linked event that was erased -/

/-- A common event that erases the event it acts for. -/
def erasingCommon : Json := .obj [("id", 1), ("list", .arr [.obj [("code", 214)]])]

/-- A game with two events on its maps, and the common event. -/
def erasingGame : Game where
  database := { commonEvents := .arr [.null, erasingCommon] }
  mapFile := fun _ =>
    let page : Json := .obj [("list", .arr [])]
    .ok (some (.obj [("events", .arr [.null, .obj [("id", 1), ("pages", .arr [page])],
      .obj [("id", 2), ("pages", .arr [page])]])]))

/-- A command with its parameters, as the editor writes it. -/
def commandOf (code : Int) (params : List Json) : Json :=
  .obj [("code", .int code), ("parameters", .arr params)]

/-- The command that links a list to the second event. -/
def linkToSecond : Json :=
  commandOf 357 [.str layerName, .str "link_event", .str "", .obj [("event", .str "2")]]

/-- The game after a list has been run for its first event. -/
def runForFirst (list : List Json) : Session :=
  runInterpreter.after ((setupInterpreter (.arr list) 1).after
    ((setupMap 1).after (Session.begin erasingGame {})))

theorem reachable_runForFirst (list : List Json) : Reachable erasingGame (runForFirst list) := by
  have hbegin : Reachable erasingGame (Session.begin erasingGame {}) := .begin {}
  have hmap := hbegin.after (.setupMap 1 none)
  exact (hmap.after (.setupInterpreter (.arr list) 1)).after .runInterpreter

/-- The first event's list waits, linked to the second event. -/
def linkedSession : Session := runForFirst [linkToSecond, commandOf 230 [1]]

/-- The first event's list waits, linked to the second event, which a common event has erased. -/
def straySession : Session := runForFirst [linkToSecond, commandOf 117 [1], commandOf 230 [1]]

/-- While the second event stands, all four commands go to it. -/
theorem redirections_linkedSession :
    linkedSession.SwitchesFor 0 (linkedSession.resolve 0) ∧
      linkedSession.CallsFor 0 (linkedSession.resolve 0).entity ∧
        linkedSession.ErasesOnly 0 (linkedSession.resolve 0).entity := by
  have hholds : linkedSession.linkHolds (linkedSession.frame 0).link = true := by decide +kernel
  have hacts : linkedSession.ActsOnMap 0 := ⟨by decide +kernel, by decide +kernel⟩
  obtain ⟨hswitches, hcalls, herases, hagree⟩ := redirections (s := linkedSession) (d := 0)
    (by decide +kernel) (fun _ => by decide +kernel) hacts
  have hsame := hagree.mpr fun _ => Or.inl hholds
  rw [hsame] at hcalls herases
  exact ⟨hswitches, hcalls, herases⟩

/-- Once the second event is erased, self switches are those of the first event, while a common event
is called, and an event erased, for the second. -/
theorem not_agree_straySession : Reachable erasingGame straySession ∧
    (straySession.frame 0).isRunning = true ∧ straySession.StaysOnMap 0 ∧
      straySession.ActsOnMap 0 ∧ straySession.SwitchesFor 0 (straySession.resolve 0) ∧
        ¬ straySession.CallsFor 0 (straySession.resolve 0).entity ∧
          ¬ straySession.ErasesOnly 0 (straySession.resolve 0).entity := by
  have hrun : (straySession.frame 0).isRunning = true := by decide +kernel
  have hstays : straySession.StaysOnMap 0 := fun _ => by decide +kernel
  have hacts : straySession.ActsOnMap 0 := ⟨by decide +kernel, by decide +kernel⟩
  have hcallee : callee straySession (straySession.frame 0) = 2 := by decide +kernel
  have hown : (straySession.resolve 0).entity = 1 := by decide +kernel
  refine ⟨reachable_runForFirst _, hrun, hstays, hacts, switchesFor_resolve hacts, ?_, ?_⟩
  · intro hcalls
    have hlinked := callsFor_callee hrun
    rw [hown] at hcalls
    rw [hcallee] at hlinked
    have hentry : straySession.game.database.commonEvent? 1 = some erasingCommon := by
      have hgame : straySession.game = erasingGame := (reachable_runForFirst _).knowsCommons.1
      rw [hgame]
      rfl
    have hreadable :
        (EventCommand.readList (CommonEvent.listOf erasingCommon)).result.isOk = true := by
      decide +kernel
    cases hlist : (EventCommand.readList (CommonEvent.listOf erasingCommon)).result with
    | error e =>
        rw [hlist] at hreadable
        cases hreadable
    | ok commands =>
        obtain ⟨t, ht, -, -, hfirst⟩ := hcalls 1 _ commands hentry hlist
        obtain ⟨u, hu, -, -, hsecond⟩ := hlinked 1 _ commands hentry hlist
        obtain rfl : t = u := (EStateM.Result.ok.inj (ht.symm.trans hu)).2
        have hentity := congrArg Scope.entity (hfirst.symm.trans hsecond)
        cases hentity
  · intro herases
    have hlinked := erasesOnly_callee hstays hacts
    rw [hown] at herases
    rw [hcallee] at hlinked
    obtain ⟨t, ht, hfirst, -⟩ := herases
    obtain ⟨u, hu, -, hothers⟩ := hlinked
    obtain rfl : t = u := (EStateM.Result.ok.inj (ht.symm.trans hu)).2
    have hstands : (straySession.event? 1).map MapEvent.erased = some false := by decide +kernel
    rw [hothers 1 (by decide)] at hfirst
    rw [hfirst, Option.map_map] at hstands
    cases hevent : straySession.event? 1 with
    | none =>
        rw [hevent] at hstands
        cases hstands
    | some e =>
        rw [hevent] at hstands
        simp at hstands

end Play

end EventLayer

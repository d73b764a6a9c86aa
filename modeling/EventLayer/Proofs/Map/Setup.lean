/-
**What the setting up of a map leaves as it was.**

Setting up a map finds its data, puts an empty map in the place of the one before, reads the events
and queues the lists that run at the setup.  A property is preserved by the whole as soon as the
writes of these parts preserve it.

Main results:

* `Play.preserves_commonEvents`, `Play.preserves_mapData`, `Play.preserves_queueSetup` — the parts;
* `Play.preserves_setupMap_of_writes` — **the setting up of a map**.
-/
import EventLayer.Proofs.Preserves
import EventLayer.Session.Setup

set_option autoImplicit false
set_option relaxedAutoImplicit false

namespace EventLayer.Play

variable {P : Session → Prop}

/-- A look at the common events keeps what does not depend on what is known of them. -/
theorem preserves_commonEvents
    (hP : ∀ (s : Session) (commons : Option (List CommonEvent)) (notices : List Notice), P s →
      P { s with map.commons := commons, notices := notices }) : commonEvents.Preserves P := by
  refine preserves_getBind fun s => ?_
  dsimp only
  split
  · exact preserves_pure _
  · have hread : ∀ (s : Session) (notices : List Notice), P s → P { s with notices } :=
      fun s notices => hP s s.map.commons notices
    refine Preserves.bind (preserves_reading hread _) fun found => ?_
    exact Preserves.bind (preserves_modify fun s => hP s _ s.notices) fun _ => preserves_pure _

/-- A map without data is noted. -/
theorem preserves_mapData (hn : ∀ (s : Session) (n : List Notice), P s → P { s with notices := n })
    (id : Int) (given : Option Json) : (mapData id given).Preserves P := by
  unfold mapData
  split
  · exact preserves_pure _
  · refine preserves_getBind fun _ => (preserves_except _).bind fun found => ?_
    cases found with
    | some data => exact preserves_pure _
    | none => exact (preserves_note hn _).bind fun _ => preserves_pure _

/-- Lists that are queued come behind those that are queued already. -/
theorem preserves_queueSetup (hcommons : commonEvents.Preserves P)
    (hpending : ∀ (s : Session) (pending : List PendingRun), P s →
      P { s with map.pending := pending }) : queueSetup.Preserves P := by
  refine preserves_getBind fun _ => Preserves.bind (preserves_modify fun _ hs => hpending _ _ hs) fun _ => ?_
  exact hcommons.bind fun _ => preserves_getBind fun _ => preserves_modify fun _ hs => hpending _ _ hs

/-- **The setting up of a map** keeps what the notices have no part in, what an empty map has as well,
and what is known of events that are read. -/
theorem preserves_setupMap_of_writes {id : Int}
    (hn : ∀ (s : Session) (n : List Notice), P s → P { s with notices := n })
    (hblank : ∀ (s : Session) (width height : Int) (tiles : Json), P s →
      P { s with
          interpreter := s.interpreter.clear
          map := { s.map with id, width, height, tiles, events := ∅, blocked := [] } })
    (hread : ∀ (s : Session) (db : Database) (stores : Stores) (entries : List Json)
      (events : OrderedMap Int MapEvent), (readEvents id db stores ∅ entries).result = .ok events →
        P s → P { s with map.events := events })
    (hqueue : queueSetup.Preserves P) (given : Option Json) : (setupMap id given).Preserves P := by
  refine (preserves_mapData hn id given).bind fun data => ?_
  refine (preserves_except _).bind fun _ => (preserves_except _).bind fun _ => ?_
  refine (preserves_except _).bind fun _ => (preserves_except _).bind fun _ => ?_
  refine (preserves_except _).bind fun _ => ?_
  refine Preserves.bind (preserves_modify fun _ hs => hblank _ _ _ _ hs) fun _ => ?_
  refine preserves_getBind fun s => (preserves_except _).bind fun _ => (preserves_except _).bind fun _ => ?_
  refine preserves_readingBind hn fun events hevents => ?_
  exact Preserves.bind (preserves_modify fun _ hs => hread _ _ _ _ _ hevents hs) fun _ => hqueue

end EventLayer.Play

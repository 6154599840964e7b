import OciJanus.Verified.GoStrings
import OciJanus.Verified.KeyedTable
import OciJanus.Verified.Run

/-!
# Fan-out of an event to its endpoints

A failed insert is logged and the loop goes on; a handler that dies is run again.
-/

namespace OciJanus.Webhook.FanOut

open Verified GoStrings KeyedTable Run List

abbrev UUID := BitVec 128

structure Event where
  (id type tenantID payload : String)

structure Endpoint where
  (id tenantID : UUID)
  events : List String
  active : Bool

abbrev Endpoints := Table Endpoint UUID Endpoint.id

structure DeliveryRow where
  (endpointID tenantID : UUID)
  eventType : String
  payload : Event

def Endpoint.wants (ep : Endpoint) (tenantID : UUID) (eventType : String) : Bool :=
  ep.tenantID = tenantID ∧ ep.active = true ∧ (eventType ∈ ep.events ∨ "*" ∈ ep.events)

def findEndpointsForEvent (endpoints : Endpoints) (tenantID : UUID) (eventType : String) :
    List Endpoint :=
  endpoints.rows.filter fun ep => ep.wants tenantID eventType

/-- What becomes of one insert; the reply to a committed one may be lost. -/
inductive Create where
  | inserted
  | failed
  | replyLost

def Create.commits : Create → Bool
  | .inserted => true
  | .failed => false
  | .replyLost => true

/-- One run of the handler: whether the query succeeds, and what becomes of the inserts, as far as
the run gets. -/
structure Handling where
  found : Bool
  creates : List Create

inductive HandleError where
  | invalidTenantID (eventID : String)
  | findEndpointsForEvent

inductive Result where
  | ok
  | error (err : HandleError)
  | died

def deliveryRow (tenantID : UUID) (ev : Event) (ep : Endpoint) : DeliveryRow :=
  ⟨ep.id, tenantID, ev.type, ev⟩

def createDeliveries (tenantID : UUID) (ev : Event) (rows : List DeliveryRow) :
    List Endpoint → List Create → List DeliveryRow × Result
  | [], _ => (rows, .ok)
  | _ :: _, [] => (rows, .died)
  | ep :: eps, c :: cs =>
    -- A failed insert does not end the loop.
    createDeliveries tenantID ev
      (if c.commits then rows ++ [deliveryRow tenantID ev ep] else rows) eps cs

section

variable (parseUUID : String → Option UUID) (endpoints : Endpoints)

def handleEvent (rows : List DeliveryRow) (ev : Event) (h : Handling) : List DeliveryRow × Result :=
  if ev.tenantID = "" then (rows, .ok)
  else if hasPrefix ev.type "webhook." then (rows, .ok)
  else
    match parseUUID ev.tenantID with
    | none => (rows, .error (.invalidTenantID ev.id))
    | some t =>
      if h.found then
        createDeliveries t ev rows (findEndpointsForEvent endpoints t ev.type) h.creates
      else (rows, .error .findEndpointsForEvent)

def deliver (ev : Event) (rows : List DeliveryRow) (h : Handling) : List DeliveryRow :=
  (handleEvent parseUUID endpoints rows ev h).1

end

theorem createDeliveries_rows (t : UUID) (ev : Event) (eps : List Endpoint) (cs : List Create)
    (rows : List DeliveryRow) :
    (createDeliveries t ev rows eps cs).1 =
      rows ++ ((eps.zip cs).filter fun x => x.2.commits).map fun x => deliveryRow t ev x.1 := by
  induction eps generalizing cs rows with
  | nil => simp [createDeliveries]
  | cons ep eps ih =>
    cases cs with
    | nil => simp [createDeliveries]
    | cons c cs =>
      unfold createDeliveries
      rw [ih]
      cases hc : c.commits with
      | true | false => simp [hc]

section Runs

variable {parseUUID : String → Option UUID} {endpoints : Endpoints} {ev : Event}

/-- A row for each endpoint of the event's tenant that wants it. -/
def allowed (parseUUID : String → Option UUID) (endpoints : Endpoints) (ev : Event) :
    List DeliveryRow :=
  (parseUUID ev.tenantID).toList.flatMap fun t =>
    (endpoints.rows.filter (·.wants t ev.type)).map (deliveryRow t ev)

theorem deliver_subset (rows : List DeliveryRow) (h : Handling) :
    deliver parseUUID endpoints ev rows h ⊆ rows ++ allowed parseUUID endpoints ev := by
  unfold deliver handleEvent
  split_ifs
  iterate 2 exact subset_append_left ..
  all_goals
    split
    · exact subset_append_left ..
  · rename_i t ht
    rw [createDeliveries_rows]
    refine append_subset.mpr ⟨subset_append_left .., fun r hr => mem_append_right rows ?_⟩
    obtain ⟨x, hx, rfl⟩ := mem_map.mp hr
    have hep := (of_mem_zip (mem_filter.mp hx).1).1
    simpa [allowed, ht] using ⟨x.1, mem_filter.mp hep, rfl⟩
  · exact subset_append_left ..

/-- **No event leaves its tenant**, whatever becomes of the endpoints between two events. -/
theorem deliveries_owned (parseUUID : String → Option UUID)
    (hs : List (Endpoints × Event × Handling)) (rows : List DeliveryRow) :
    run (fun rows x => deliver parseUUID x.1 x.2.1 rows x.2.2) rows hs ⊆
      rows ++ hs.flatMap fun x => allowed parseUUID x.1 x.2.1 := by
  induction hs generalizing rows with
  | nil => simp
  | cons x hs ih =>
    rw [run_cons, flatMap_cons, ← append_assoc]
    refine Subset.trans (ih _) (append_subset.mpr ⟨?_, subset_append_right ..⟩)
    exact Subset.trans (deliver_subset rows x.2.2) (subset_append_left ..)

end Runs

end OciJanus.Webhook.FanOut

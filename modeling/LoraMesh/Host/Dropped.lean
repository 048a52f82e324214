import LoraMesh.Host.Bus
import LoraMesh.Host.Contacts

/-!
# Host — Dropped

The worker of `EventBus` with the file of the operator's names: where the board has deleted a contact, the worker
drops its names.

* `MappedBus.step`: a move of the bus, with the file and what has passed on the link.
* `Confirmed`: the record that a move reads confirms the deletion of a contact, in time, as the first reply to the
  request.
* `mappings_kept`: no move changes a mapping otherwise.
-/

namespace LoraMesh

namespace EventBus

/-- The request for the deletion that a record confirms, as `handle` finds it. -/
def confirmed (s : EventBus) (obj : Fields) : Option Command :=
  if isReceived obj then none
  else
    match replyOf obj with
    | some (cmdId, ok) =>
      match s.pending.find? fun p => p.1 == cmdId with
      | some (_, r) =>
        if r.deadline ≤ s.now then none
        else if r.op == "contact_delete" && ok then
          match deleted obj with
          | some true => some r
          | _ => none
        else none
      | none => none
    | none => none

/-- The contact whose names are dropped. -/
def dropped (s : EventBus) (obj : Fields) : Option ℤ := (s.confirmed obj).bind fun r => r.params.int? "contact_id"

end EventBus

/-- What passes on the link: a line is written for a request, or a record arrives. -/
inductive Traffic where
  | wrote (cmdId : ℤ) (r : Command)
  | arrived (obj : Fields)

namespace EventBus

/-- What passes on the link in a move. -/
def passed (py : BusPython) (s : EventBus) : Move → List Traffic
  | .work calls =>
    match s.phase with
    | .write r =>
      if r.deadline ≤ s.now then []
      else
        match encodeRequest py.toPython s.nextId r.op r.params, calls.wrote with
        | .ok _, none => [.wrote s.nextId r]
        | _, _ => []
    | .read =>
      match calls.read with
      | .record obj _ => [.arrived obj]
      | _ => []
    | _ => []
  | _ => []

end EventBus

/-- The request has been written under this id, and no reply with the id has arrived since. -/
def Unanswered (traffic : List Traffic) (cmdId : ℤ) (r : Command) : Prop :=
  ∃ later earlier, traffic = later ++ .wrote cmdId r :: earlier ∧
    ∀ obj, .arrived obj ∈ later → ∀ ok, EventBus.replyOf obj ≠ some (cmdId, ok)

structure MappedBus where
  bus : EventBus
  file : MappingFile
  /-- Latest first. -/
  traffic : List Traffic

namespace MappedBus

section

variable (py : BusPython) (complaint : ContactsError → String) (serial : String)

def start (file : MappingFile) : MappedBus where
  bus := .start
  file := file
  traffic := []

/-- `contacts.drop_contact(link.serial, "", cid)`: the file, and the text of what it raises. -/
def cleanup (file : MappingFile) (cid : ℤ) : MappingFile × Option String :=
  match dropContact file serial "" cid with
  | .ok file' => (file', none)
  | .error e => (file, some (complaint e))

/-- The names of a deleted contact are dropped as its record is read. -/
def settle (s : MappedBus) (i : EventBus.Move) : MappingFile × EventBus.Move :=
  match i with
  | .work ⟨wrote, .record obj given⟩ =>
    match s.bus.phase, s.bus.dropped obj with
    | .read, some cid =>
      let cleaned := cleanup complaint serial s.file cid
      (cleaned.1, .work ⟨wrote, .record obj cleaned.2⟩)
    | _, _ => (s.file, .work ⟨wrote, .record obj given⟩)
  | _ => (s.file, i)

/-- A move of the bus, with the file. -/
def step (s : MappedBus) (i : EventBus.Move) : MappedBus where
  bus := s.bus.step py (settle complaint serial s i).2
  file := (settle complaint serial s i).1
  traffic := s.bus.passed py i ++ s.traffic

end

/-- The move reads a record that confirms the deletion of the contact: an `ok` reply with `deleted`, before the
deadline of a `contact_delete` for the contact that has been written, and the first reply to it. -/
def Confirmed (s : MappedBus) (i : EventBus.Move) (cid : ℤ) : Prop :=
  ∃ wrote obj given cmdId r, i = .work ⟨wrote, .record obj given⟩ ∧ s.bus.phase = .read ∧
    EventBus.replyOf obj = some (cmdId, true) ∧ EventBus.deleted obj = some true ∧ r.op = "contact_delete" ∧
      r.params.int? "contact_id" = some cid ∧ s.bus.now < r.deadline ∧ Unanswered s.traffic cmdId r

/-- The move changes no mapping, but for those of a contact of the board whose deletion it confirms, which go. -/
def Lawful (py : BusPython) (complaint : ContactsError → String) (serial : String) (s : MappedBus)
    (i : EventBus.Move) : Prop :=
  ∀ board name, resolveContact (step py complaint serial s i).file board name = resolveContact s.file board name ∨
    ∃ cid : ContactId, serialOf board = serialOf serial ∧ resolveContact s.file board name = .ok (some cid) ∧
      resolveContact (step py complaint serial s i).file board name = .ok none ∧ Confirmed s i cid.1

end MappedBus

/-! ### Pending requests -/

theorem Unanswered.wrote {traffic : List Traffic} {cmdId c : ℤ} {r r' : Command} (h : Unanswered traffic cmdId r) :
    Unanswered (.wrote c r' :: traffic) cmdId r := by
  obtain ⟨later, earlier, rfl, hlater⟩ := h
  refine ⟨.wrote c r' :: later, earlier, rfl, fun obj hobj => ?_⟩
  rcases List.mem_cons.mp hobj with h | h
  · cases h
  · exact hlater obj h

theorem Unanswered.arrived {traffic : List Traffic} {cmdId : ℤ} {r : Command} (h : Unanswered traffic cmdId r)
    {obj : Fields} (hobj : ∀ ok, EventBus.replyOf obj ≠ some (cmdId, ok)) :
    Unanswered (.arrived obj :: traffic) cmdId r := by
  obtain ⟨later, earlier, rfl, hlater⟩ := h
  refine ⟨.arrived obj :: later, earlier, rfl, fun o ho => ?_⟩
  rcases List.mem_cons.mp ho with h | h
  · cases h
    exact hobj
  · exact hlater o h

namespace EventBus

/-- Every pending request has been written and not been answered, and no two have one id. -/
structure Awaited (s : EventBus) (traffic : List Traffic) : Prop where
  unanswered : ∀ p ∈ s.pending, Unanswered traffic p.1 p.2
  distinct : (s.pending.map Prod.fst).Nodup

section

variable {py : BusPython} {s : EventBus} {traffic : List Traffic}

theorem pending_request (op : String) (params : Fields) (timeout : ℕ) :
    (s.request py op params timeout).pending = s.pending := by
  unfold request
  split
  · rfl
  · split
    · rfl
    · split
      · rfl
      · rfl

theorem pending_raise (x : Raised) : (s.raise x).pending = s.pending := by
  cases x with
  | caught text => rfl
  | escapes => rfl

theorem pending_answer (cmdId : ℤ) (r : Command) (ok : Bool) (obj : Fields) (cleanup : Option String) :
    (s.answer py cmdId r ok obj cleanup).pending = s.pending.eraseP fun p => p.1 == cmdId := by
  unfold answer
  dsimp only
  split
  · rfl
  · split
    · split
      · rfl
      · unfold dropContact
        split
        · rfl
        · split
          · rfl
          · rfl
      · rfl
    · rfl

/-- A reply is no longer awaited. -/
theorem pending_handle (obj : Fields) (cleanup : Option String) :
    (s.handle py obj cleanup).pending = s.pending ∧ (∀ cmdId ok, replyOf obj ≠ some (cmdId, ok)) ∨
      ∃ cmdId ok, replyOf obj = some (cmdId, ok) ∧
        (s.handle py obj cleanup).pending = s.pending.eraseP fun p => p.1 == cmdId := by
  unfold handle
  split
  · rename_i hrec
    refine .inl ⟨?_, fun cmdId ok hreply => ?_⟩
    · split
      · rfl
      · rfl
      · rfl
    · unfold isReceived at hrec
      unfold replyOf at hreply
      cases hevent : obj.get "event" with
      | none =>
          rw [hevent] at hrec
          cases hrec
      | some v =>
          rw [hevent] at hreply
          cases hreply
  · split
    · rename_i cmdId ok hreply
      refine .inr ⟨cmdId, ok, hreply, ?_⟩
      split
      · exact pending_answer cmdId _ ok obj cleanup
      · rename_i hnone
        refine (List.eraseP_of_forall_not fun p hp => ?_).symm
        exact List.find?_eq_none.mp hnone p hp
    · rename_i hnone
      exact .inl ⟨rfl, fun cmdId ok hreply => by cases hnone.symm.trans hreply⟩

/-- Of distinct ids, the one that is popped is gone. -/
theorem ne_of_mem_eraseP {cmdId : ℤ} {p : ℤ × Command} : ∀ {pending : List (ℤ × Command)},
    (pending.map Prod.fst).Nodup → p ∈ pending.eraseP (fun q => q.1 == cmdId) → p.1 ≠ cmdId
  | [], _, hp => nomatch hp
  | q :: pending, h, hp => by
      rw [List.map_cons, List.nodup_cons] at h
      by_cases hq : q.1 = cmdId
      · have hb : (q.1 == cmdId) = true := beq_iff_eq.mpr hq
        rw [List.eraseP_cons, hb, cond_true] at hp
        rintro rfl
        exact h.1 (hq ▸ List.mem_map_of_mem hp)
      · rw [List.eraseP_cons, beq_eq_false_iff_ne.mpr hq, cond_false] at hp
        rcases List.mem_cons.mp hp with rfl | hp
        · exact hq
        · exact ne_of_mem_eraseP h.2 hp

/-- What is registered is registered once. -/
theorem register_distinct {pending : List (ℤ × Command)} (h : (pending.map Prod.fst).Nodup) (cmdId : ℤ) (r : Command) :
    ((register pending cmdId r).map Prod.fst).Nodup := by
  unfold register
  split
  · have hkeys : (Prod.fst ∘ fun p : ℤ × Command => if p.1 = cmdId then (cmdId, r) else p) = Prod.fst := by
      funext p
      rw [Function.comp_apply]
      split
      · exact Eq.symm ‹p.1 = cmdId›
      · rfl
    rw [List.map_map, hkeys]
    exact h
  · rename_i hnone
    rw [List.map_append, List.map_singleton, List.nodup_append]
    refine ⟨h, List.nodup_singleton _, ?_⟩
    intro a ha b hb
    rcases List.mem_singleton.mp hb with rfl
    rintro rfl
    obtain ⟨p, hp, hpa⟩ := List.mem_map.mp ha
    exact hnone (List.lookup_isSome_iff.mpr ⟨p, hp, beq_iff_eq.mpr hpa.symm⟩)

theorem mem_register {pending : List (ℤ × Command)} {cmdId : ℤ} {r : Command} {p : ℤ × Command}
    (h : p ∈ register pending cmdId r) : p = (cmdId, r) ∨ p ∈ pending := by
  unfold register at h
  split at h
  · obtain ⟨q, hq, rfl⟩ := List.mem_map.mp h
    split
    · exact .inl rfl
    · exact .inr hq
  · rcases List.mem_append.mp h with h | h
    · exact .inr h
    · exact .inl (List.mem_singleton.mp h)

theorem Awaited.sublist (h : Awaited s traffic) {s' : EventBus} (hs : s'.pending.Sublist s.pending) :
    Awaited s' traffic :=
  ⟨fun p hp => h.unanswered p (hs.subset hp), h.distinct.sublist (hs.map Prod.fst)⟩

theorem Awaited.same (h : Awaited s traffic) {s' : EventBus} (hs : s'.pending = s.pending) : Awaited s' traffic :=
  h.sublist (hs ▸ List.Sublist.refl _)

theorem write_awaited (h : Awaited s traffic) {r : Command} (hp : s.phase = .write r) (calls : SessionCalls) :
    Awaited (s.write py r calls.wrote) (s.passed py (.work calls) ++ traffic) := by
  unfold write passed
  simp only [hp]
  split
  · exact h.same rfl
  · cases encodeRequest py.toPython s.nextId r.op r.params with
    | error e =>
        cases e with
        | unserialisable => exact h.same (pending_raise _)
        | _ => exact h.same (pending_raise _)
    | ok line =>
        cases calls.wrote with
        | some x => exact h.same (pending_raise x)
        | none =>
            refine ⟨fun p hp => ?_, register_distinct h.distinct _ r⟩
            rcases mem_register hp with rfl | hp
            · exact ⟨[], traffic, rfl, nofun⟩
            · exact (h.unanswered p hp).wrote

theorem read_awaited (h : Awaited s traffic) (hp : s.phase = .read) (calls : SessionCalls) :
    Awaited (s.read py calls.read) (s.passed py (.work calls) ++ traffic) := by
  unfold read passed
  simp only [hp]
  cases calls.read with
  | quiet => exact h.same rfl
  | raised x => exact h.same (pending_raise x)
  | record obj cleanup =>
      dsimp only
      rcases @pending_handle py s obj cleanup with ⟨hsame, hno⟩ | ⟨cmdId, ok, hreply, hpop⟩
      · refine ⟨fun p hp => ?_, hsame ▸ h.distinct⟩
        exact (h.unanswered p (hsame ▸ hp)).arrived (hno p.1)
      · have hsub : (s.handle py obj cleanup).pending.Sublist s.pending := hpop ▸ List.eraseP_sublist
        refine ⟨fun p hp => (h.unanswered p (hsub.subset hp)).arrived fun ok' hreply' => ?_,
          h.distinct.sublist (hsub.map Prod.fst)⟩
        rw [hreply] at hreply'
        have hid : cmdId = p.1 := congrArg Prod.fst (Option.some.inj hreply')
        rw [hpop] at hp
        exact absurd hid.symm (ne_of_mem_eraseP h.distinct hp)

theorem step_awaited (h : Awaited s traffic) (i : Move) : Awaited (s.step py i) (s.passed py i ++ traffic) := by
  cases i with
  | tick ms => exact h.same rfl
  | request op params timeout => exact h.same (pending_request op params timeout)
  | enqueue =>
      refine h.same ?_
      show s.enqueue.pending = s.pending
      unfold enqueue
      split
      · rfl
      · rfl
  | detach =>
      refine h.same ?_
      show s.detach.pending = s.pending
      unfold detach
      split
      · rfl
      · rfl
  | joined =>
      refine h.same ?_
      show s.joined.pending = s.pending
      unfold joined
      split
      · rfl
      · rfl
  | work calls =>
      unfold step work
      cases hp : s.phase with
      | write r => exact write_awaited h hp calls
      | read => exact read_awaited h hp calls
      | loop =>
          unfold passed
          simp only [hp]
          unfold loop
          split
          · exact h.same rfl
          · refine h.sublist ?_
            unfold expire
            rw [foldl_finish fun p => .noReply p.1 p.2.op]
            exact List.filter_sublist
      | take =>
          unfold passed
          simp only [hp]
          unfold take
          split
          · exact h.same rfl
          · exact h.same rfl
      | close =>
          unfold passed
          simp only [hp]
          refine h.sublist ?_
          unfold close
          rw [foldl_finish fun p => .disconnected p.1 p.2.op]
          exact List.nil_sublist _
      | leave =>
          unfold passed
          simp only [hp]
          unfold leave
          split
          · exact h.same rfl
          · exact h.same rfl
      | exited =>
          unfold passed
          simp only [hp]
          exact h.same rfl

/-- What a record confirms is a deletion that is still awaited. -/
theorem confirmed_spec {obj : Fields} {r : Command} (h : s.confirmed obj = some r) :
    ∃ cmdId, replyOf obj = some (cmdId, true) ∧ deleted obj = some true ∧ r.op = "contact_delete" ∧
      s.now < r.deadline ∧ (cmdId, r) ∈ s.pending := by
  unfold confirmed at h
  split at h
  · cases h
  · split at h
    · rename_i cmdId ok hreply
      split at h
      · rename_i c r' hfind
        split at h
        · cases h
        · rename_i hdeadline
          split at h
          · rename_i hop
            obtain ⟨hdelete, rfl⟩ := Bool.and_eq_true_iff.mp hop
            split at h
            · rename_i hdel
              cases h
              have hid := List.find?_some hfind
              obtain rfl := beq_iff_eq.mp hid
              exact ⟨c, hreply, hdel, beq_iff_eq.mp hdelete, Nat.lt_of_not_le hdeadline,
                List.mem_of_find?_eq_some hfind⟩
            · cases h
          · cases h
      · cases h
    · cases h

/-- Where no names are dropped, the worker does the same whatever becomes of the file. -/
theorem handle_spared {obj : Fields} (h : s.dropped obj = none) (cleanup cleanup' : Option String) :
    s.handle py obj cleanup = s.handle py obj cleanup' := by
  unfold dropped confirmed at h
  unfold handle
  split
  · rfl
  · rename_i hrec
    rw [if_neg hrec] at h
    split
    · rename_i cmdId ok hreply
      rw [hreply] at h
      dsimp only at h
      split
      · rename_i c r hfind
        rw [hfind] at h
        dsimp only at h
        unfold answer
        dsimp only
        split
        · rfl
        · rename_i hdeadline
          rw [if_neg hdeadline] at h
          split
          · rename_i hop
            rw [if_pos hop] at h
            split
            · rfl
            · rename_i hdel
              rw [hdel] at h
              have hnone : r.params.int? "contact_id" = none := h
              unfold dropContact
              rw [hnone]
            · rfl
          · rfl
      · rfl
    · rfl

end

end EventBus

/-! ### The file -/

namespace MappedBus

section

variable {py : BusPython} {complaint : ContactsError → String} {serial : String} {s : MappedBus}

theorem passed_settle (i : EventBus.Move) :
    s.bus.passed py (settle complaint serial s i).2 = s.bus.passed py i := by
  unfold settle
  split
  · split
    · rfl
    · rfl
  · rfl

theorem step_awaited (h : s.bus.Awaited s.traffic) (i : EventBus.Move) :
    (step py complaint serial s i).bus.Awaited (step py complaint serial s i).traffic := by
  unfold step
  dsimp only
  rw [← @passed_settle py complaint serial s i]
  exact EventBus.step_awaited h _

/-- A move that does not drop names leaves the file. -/
theorem settle_file (i : EventBus.Move) :
    (settle complaint serial s i).1 = s.file ∨
      ∃ wrote obj given cid, i = .work ⟨wrote, .record obj given⟩ ∧ s.bus.phase = .read ∧
        s.bus.dropped obj = some cid ∧ dropContact s.file serial "" cid = .ok (settle complaint serial s i).1 := by
  unfold settle
  split
  · rename_i wrote obj given
    split
    · rename_i cid hphase hdropped
      unfold cleanup
      cases hdrop : dropContact s.file serial "" cid with
      | error e => exact .inl rfl
      | ok file' => exact .inr ⟨wrote, obj, given, cid, rfl, hphase, hdropped, hdrop⟩
    · exact .inl rfl
  · exact .inl rfl

theorem step_lawful (h : s.bus.Awaited s.traffic) (i : EventBus.Move) : Lawful py complaint serial s i := by
  intro board name
  have hfile : (step py complaint serial s i).file = (settle complaint serial s i).1 := rfl
  rw [hfile]
  rcases @settle_file complaint serial s i with
    hsame | ⟨wrote, obj, given, c, rfl, hphase, hdropped, hdrop⟩
  · exact .inl (by rw [hsame])
  · rcases resolve_drop hdrop board name with ⟨hboard, hname | ⟨cid, hcid, hres⟩, hnone⟩ | ⟨hkept, -⟩
    · -- The name that is given is empty, and no name at all.
      subst hname
      have hblank : Label.of? "" = none := dif_neg (by decide)
      refine .inl (hnone.trans ?_)
      unfold resolveContact
      rw [hblank]
    · obtain ⟨r, hr, hcontact⟩ := Option.bind_eq_some_iff.mp hdropped
      obtain ⟨cmdId, hreply, hdel, hop, hdeadline, hpending⟩ := EventBus.confirmed_spec hr
      refine .inr ⟨cid, hboard, hres, hnone, wrote, obj, given, cmdId, r, rfl, hphase, hreply, hdel, hop, ?_,
        hdeadline, h.unanswered _ hpending⟩
      rw [hcid, hcontact]
    · exact .inl hkept

end

/-- **Mappings are kept.**  In every run of the worker, over any requests and any records, no move changes a mapping
of another board or another contact, and the names of a contact go only with the record that confirms its deletion. -/
theorem mappings_kept (py : BusPython) (complaint : ContactsError → String) (serial : String) (file : MappingFile)
    (is : List EventBus.Move) : Along (step py complaint serial) (Lawful py complaint serial) (start file) is :=
  along_invariant (fun _ i h => step_awaited h i) (fun _ i h => step_lawful h i) is ⟨nofun, List.nodup_nil⟩

end MappedBus

end LoraMesh

import LoraMesh.Host.Chess

/-!
# Host — Refresh

Tool calls and page refreshes of `host/meshctl/chess_live.py` at once.  A call changes the table under the lock,
takes what it saves under the lock again, writes it to a file of its own, and puts that in place of the state file.
A refresh reads the state file and puts what it has read in place of the table.

* `LiveStep.step`: a move of the server, at the granularity of the lock and of the files.
* `NothingLost`: when nothing is under way, every move whose call has returned ok is in its game and in the file.
* `InOrder`: no refresh goes back behind a change, no save behind a later one, and none fails.
* `nothing_lost`: so nothing is lost.

What is saved keeps the number of changes before it, and a log keeps the changes and the calls that have returned
ok, latest first; no program reads them.
-/

namespace LoraMesh

/-- What is in a file, if it can be read, and how many changes it knows. -/
structure Saved where
  content : Option PyVal
  version : ℕ

/-- Where a call stands after its change, which is the `v`th. -/
inductive CallPhase where
  | saving (v : ℕ)
  | writing (v : ℕ) (saved : Saved)
  | replacing (v : ℕ)
  | replying (v : ℕ)

inductive Logged (Move : Type) where
  | changed (v : ℕ) (gameId : String) (change : GameChange Move)
  | returned (v : ℕ)

structure ChessLive (Position Move : Type) where
  games : Games Position Move
  file : Saved
  /-- The other file, if there is one. -/
  tmp : Option Saved
  calls : Dict ℕ CallPhase
  /-- What a refresh has read. -/
  held : Option Saved
  version : ℕ
  written : Saved
  log : List (Logged Move)

/-- How a write ends: the file cannot be opened, or is cut short. -/
inductive Wrote where
  | ok
  | unopened
  | cut
  deriving DecidableEq

/-- Calls are told apart by the threads that they run in; one refresh is served at a time. -/
inductive LiveMove where
  | call (i : ℕ) (call : ChessCall)
  | snapshot (i : ℕ)
  | write (i : ℕ) (wrote : Wrote)
  | replace (i : ℕ) (ok : Bool)
  /-- Not ok is where `_snapshot` raises. -/
  | reply (i : ℕ) (ok : Bool)
  | read
  | update

section

variable {Position Move : Type} (lib : ChessLib Position Move)

namespace ChessLive

/-- The server as it starts, with what it finds. -/
def start (file : Option PyVal) (tmp : Option (Option PyVal)) : ChessLive Position Move where
  games := (loadFile lib file).getD .empty
  file := ⟨file, 0⟩
  tmp := tmp.map (⟨·, 0⟩)
  calls := .empty
  held := none
  version := 0
  written := ⟨file, 0⟩
  log := []

def step (s : ChessLive Position Move) : LiveMove → ChessLive Position Move
  | .call i call =>
    match s.calls.get i, change lib s.games call with
    | none, some (games, ch) =>
      { s with
        games
        version := s.version + 1
        calls := s.calls.set i (.saving (s.version + 1))
        log := .changed (s.version + 1) call.gameId ch :: s.log }
    | _, _ => s
  | .snapshot i =>
    match s.calls.get i with
    | some (.saving v) => { s with calls := s.calls.set i (.writing v ⟨some (payload lib s.games), s.version⟩) }
    | _ => s
  | .write i wrote =>
    match s.calls.get i with
    | some (.writing v saved) =>
      match wrote with
      | .ok => { s with tmp := some saved, written := saved, calls := s.calls.set i (.replacing v) }
      | .unopened => { s with calls := s.calls.set i (.replying v) }
      | .cut => { s with tmp := some ⟨none, saved.version⟩, calls := s.calls.set i (.replying v) }
    | _ => s
  | .replace i ok =>
    match s.calls.get i with
    | some (.replacing v) =>
      match s.tmp, ok with
      | some saved, true => { s with file := saved, tmp := none, calls := s.calls.set i (.replying v) }
      | _, _ => { s with calls := s.calls.set i (.replying v) }
    | _ => s
  | .reply i ok =>
    match s.calls.get i with
    | some (.replying v) =>
      { s with calls := s.calls.pop i, log := if ok then .returned v :: s.log else s.log }
    | _ => s
  | .read => if s.held.isNone then { s with held := some s.file } else s
  | .update =>
    match s.held with
    | some saved => { s with held := none, games := (loadFile lib saved.content).getD s.games }
    | none => s

/-- No handler is under way. -/
def Idle (s : ChessLive Position Move) : Prop := s.calls.items.isEmpty = true ∧ s.held.isNone = true

instance (s : ChessLive Position Move) : Decidable s.Idle := inferInstanceAs (Decidable (_ ∧ _))

end ChessLive

/-! ### What is to be there -/

/-- The moves of a game since it was last replaced, of the changes that are `ok`. -/
def movesOf (ok : ℕ → Bool) (gameId : String) : List (Logged Move) → List Move
  | [] => []
  | .changed v id ch :: log =>
    if id = gameId then
      match ch with
      | .replaced => []
      | .pushed m => if ok v then movesOf ok gameId log ++ [m] else movesOf ok gameId log
    else movesOf ok gameId log
  | .returned _ :: log => movesOf ok gameId log

def hasReturned (log : List (Logged Move)) (v : ℕ) : Bool :=
  log.any fun e => match e with
    | .returned w => w == v
    | .changed _ _ _ => false

/-- The moves of a game whose calls have returned ok. -/
def ChessLive.okMoves (s : ChessLive Position Move) (gameId : String) : List Move :=
  movesOf (hasReturned s.log) gameId s.log

/-- The game of the state file has the moves. -/
def FileHas (content : Option PyVal) (gameId : String) (moves : List Move) : Prop :=
  ∃ data entry ucis, content = some (.dict data) ∧ Fields.get data gameId = some (.dict entry) ∧
    Fields.get entry "moves" = some (.list ucis) ∧ (moves.map fun m => PyVal.str (lib.uci m)).Sublist ucis

def NothingLost (s : ChessLive Position Move) : Prop :=
  s.Idle → ∀ gameId, s.okMoves gameId ≠ [] →
    (∃ game, s.games.get gameId = some game ∧ (s.okMoves gameId).Sublist game.moves) ∧
      FileHas lib s.file.content gameId (s.okMoves gameId)

/-! ### The condition -/

/-- What the call is about to write. -/
def CallPhase.toWrite : CallPhase → Option Saved
  | .writing _ saved => some saved
  | _ => none

def CallPhase.isReplacing : CallPhase → Bool
  | .replacing _ => true
  | _ => false

/-- A refresh that can read its file has read it at the last change, and what is saved of the games then says where
they have started; a save is not written after a later one; writing and replacing do not fail, but that another
call has put the file in place already. -/
def InOrder (s : ChessLive Position Move) : LiveMove → Prop
  | .write i wrote =>
    ∀ saved ∈ (s.calls.get i).bind CallPhase.toWrite, wrote = .ok ∧ s.written.version ≤ saved.version
  | .replace i ok => (s.calls.get i).any CallPhase.isReplacing = true → ok = true
  | .update => ∀ saved ∈ s.held, (loadFile lib saved.content).isSome = true →
      saved.version = s.version ∧ ∀ g ∈ s.games.items, Rooted lib g.2
  | _ => True

instance [DecidableEq Position] (s : ChessLive Position Move) : (m : LiveMove) → Decidable (InOrder lib s m)
  | .write i _ => inferInstanceAs (Decidable (∀ saved ∈ (s.calls.get i).bind CallPhase.toWrite, _))
  | .replace i _ => inferInstanceAs (Decidable ((s.calls.get i).any CallPhase.isReplacing = true → _))
  | .update => inferInstanceAs (Decidable (∀ saved ∈ s.held, _ → _))
  | .call _ _ | .snapshot _ | .reply _ _ | .read => .isTrue trivial

/-! ### What is under way -/

/-- What is saved knows no more changes than there are, and if it knows them all it is the table: from the file that
the server has started with, or saved from the table as it is. -/
def Fresh (games : Games Position Move) (version : ℕ) (saved : Saved) : Prop :=
  saved.version ≤ version ∧ (saved.version = version →
    if version = 0 then ∀ loaded, loadFile lib saved.content = some loaded → loaded = games
    else saved.content = some (payload lib games))

/-- A save of the last change is still to be written. -/
def Pending (version : ℕ) : CallPhase → Prop
  | .saving _ => True
  | .writing _ saved => saved.version = version
  | _ => False

/-- The games and the log. -/
structure Played (s : ChessLive Position Move) : Prop where
  valid : ValidGames lib s.games
  logged : ∀ gameId, movesOf (fun _ => true) gameId s.log ≠ [] → 0 < s.version ∧
    ∃ game, s.games.get gameId = some game ∧ movesOf (fun _ => true) gameId s.log <:+ game.moves

/-- What is saved, wherever it is. -/
structure StoredFresh (s : ChessLive Position Move) : Prop where
  file : Fresh lib s.games s.version s.file
  written : Fresh lib s.games s.version s.written
  held : ∀ saved, s.held = some saved → Fresh lib s.games s.version saved
  writing : ∀ i v saved, s.calls.get i = some (.writing v saved) → Fresh lib s.games s.version saved

/-- How far the calls have come. -/
structure Advanced (s : ChessLive Position Move) : Prop where
  changed : ∀ i phase, s.calls.get i = some phase → 0 < s.version
  due : s.version = 0 ∨ s.written.version = s.version ∨ ∃ i phase, s.calls.get i = some phase ∧ Pending s.version phase
  settled : s.file = s.written ∨ s.tmp = some s.written ∧ ∃ i v, s.calls.get i = some (.replacing v)
  replacing : ∀ i v, s.calls.get i = some (.replacing v) →
    s.tmp = some s.written ∨ s.tmp = none ∧ s.file = s.written

structure LiveInv (s : ChessLive Position Move) : Prop extends Played lib s, StoredFresh lib s, Advanced s

variable {lib}

theorem movesOf_sublist (ok : ℕ → Bool) (gameId : String) (log : List (Logged Move)) :
    (movesOf ok gameId log).Sublist (movesOf (fun _ => true) gameId log) := by
  induction log with
  | nil => exact List.Sublist.refl _
  | cons e log ih =>
      cases e with
      | returned v => exact ih
      | changed v id ch =>
          simp only [movesOf]
          split
          · cases ch with
            | replaced => exact List.Sublist.refl _
            | pushed m =>
                dsimp only
                rw [if_pos trivial]
                split
                · exact ih.append_right [m]
                · exact ih.trans (List.sublist_append_left _ _)
          · exact ih

/-- What was saved before a change is behind it. -/
theorem Fresh.later {games games' : Games Position Move} {version : ℕ} {saved : Saved}
    (h : Fresh lib games version saved) : Fresh lib games' (version + 1) saved :=
  ⟨Nat.le_succ_of_le h.1, fun he => absurd he (Nat.lt_succ_of_le h.1).ne⟩

/-- What knows all changes loads the table, if it is loaded. -/
theorem Fresh.load (hlib : lib.Correct) {games : Games Position Move} {version : ℕ} {saved : Saved}
    (h : Fresh lib games version saved) (hv : ValidGames lib games)
    (hgood : (loadFile lib saved.content).isSome = true → saved.version = version ∧ ∀ g ∈ games.items, Rooted lib g.2) :
    (loadFile lib saved.content).getD games = games := by
  cases hload : loadFile lib saved.content with
  | none => rfl
  | some loaded =>
      obtain ⟨hversion, hr⟩ := hgood (by rw [hload]; rfl)
      have hfresh := h.2 hversion
      rw [Option.getD_some]
      split at hfresh
      · exact hfresh loaded hload
      · rw [hfresh, load_payload hlib hv hr] at hload
        exact (Option.some.inj hload).symm

/-! ### What a move keeps -/

theorem logged_change (hlib : lib.Correct) {games games' : Games Position Move} {call : ChessCall}
    {ch : GameChange Move} {log : List (Logged Move)} (hc : change lib games call = some (games', ch))
    (h : ∀ gameId, movesOf (fun _ => true) gameId log ≠ [] →
      ∃ game, games.get gameId = some game ∧ movesOf (fun _ => true) gameId log <:+ game.moves)
    (v : ℕ) (gameId : String) (hne : movesOf (fun _ => true) gameId (.changed v call.gameId ch :: log) ≠ []) :
    ∃ game, games'.get gameId = some game ∧
      movesOf (fun _ => true) gameId (.changed v call.gameId ch :: log) <:+ game.moves := by
  simp only [movesOf] at hne ⊢
  obtain ⟨-, ⟨p, rfl, rfl, -⟩ | ⟨game, m, hget, -, -, rfl, rfl⟩⟩ := change_eq hlib hc
  · by_cases hid : call.gameId = gameId
    · rw [if_pos hid] at hne
      exact absurd rfl hne
    · rw [if_neg hid] at hne ⊢
      rw [Dict.get_set, if_neg (Ne.symm hid)]
      exact h gameId hne
  · by_cases hid : call.gameId = gameId
    · subst hid
      rw [if_pos rfl, Dict.get_set, if_pos rfl]
      dsimp only
      rw [if_pos trivial]
      refine ⟨_, rfl, ?_⟩
      have hsuffix : movesOf (fun _ => true) call.gameId log <:+ game.moves := by
        by_cases hnil : movesOf (fun _ => true) call.gameId log = []
        · rw [hnil]
          exact List.nil_suffix
        · obtain ⟨game', hget', hsuffix⟩ := h _ hnil
          cases hget.symm.trans hget'
          exact hsuffix
      obtain ⟨before, hbefore⟩ := hsuffix
      refine ⟨before, ?_⟩
      rw [← List.append_assoc, hbefore]
    · rw [if_neg hid] at hne ⊢
      rw [Dict.get_set, if_neg (Ne.symm hid)]
      exact h gameId hne

section

variable {calls : Dict ℕ CallPhase} {i : ℕ} {phase phase' : CallPhase}

/-- The other calls stand where they stood. -/
theorem get_other {j : ℕ} {q : CallPhase} (hj : calls.get j = some q) (hne : calls.get i ≠ some q) :
    (calls.set i phase').get j = some q := by
  rw [Dict.get_set, if_neg]
  · exact hj
  · rintro rfl
    exact hne hj

/-- What is due stays due, as long as it is not the call that has moved. -/
theorem due_set (phase' : CallPhase) {version written : ℕ} (hi : calls.get i = some phase) (hnot : ¬ Pending version phase)
    (h : version = 0 ∨ written = version ∨ ∃ j q, calls.get j = some q ∧ Pending version q) :
    version = 0 ∨ written = version ∨ ∃ j q, (calls.set i phase').get j = some q ∧ Pending version q := by
  rcases h with h | h | ⟨j, q, hj, hq⟩
  · exact .inl h
  · exact .inr (.inl h)
  · refine .inr (.inr ⟨j, q, get_other hj fun he => ?_, hq⟩)
    cases hi.symm.trans he
    exact hnot hq

end

theorem call_inv (hlib : lib.Correct) {s : ChessLive Position Move} (h : LiveInv lib s) (i : ℕ) (call : ChessCall) :
    LiveInv lib (s.step lib (.call i call)) := by
  rw [ChessLive.step]
  split
  · next games ch hfree hc =>
      have hne : ∀ q, s.calls.get i ≠ some q := fun q he => nomatch hfree.symm.trans he
      exact
        { valid := change_valid hlib h.valid hc
          logged := fun gameId hmoves =>
            ⟨Nat.succ_pos _, logged_change hlib hc (fun gameId hne => (h.logged gameId hne).2) _ gameId hmoves⟩
          file := h.file.later
          written := h.written.later
          held := fun saved hs => (h.held saved hs).later
          writing := fun j v saved hj => by
            rw [Dict.get_set] at hj
            split at hj
            · cases hj
            · exact (h.writing j v saved hj).later
          changed := fun _ _ _ => Nat.succ_pos _
          due := .inr (.inr ⟨i, _, (Dict.get_set _ _ _ _).trans (if_pos rfl), trivial⟩)
          settled := h.settled.imp_right fun ⟨ht, j, v, hj⟩ => ⟨ht, j, v, get_other hj (hne _)⟩
          replacing := fun j v hj => by
            rw [Dict.get_set] at hj
            split at hj
            · cases hj
            · exact h.replacing j v hj }
  · exact h

theorem snapshot_inv {s : ChessLive Position Move} (h : LiveInv lib s) (i : ℕ) :
    LiveInv lib (s.step lib (.snapshot i)) := by
  rw [ChessLive.step]
  split
  · next v hi =>
      have hne : ∀ w, s.calls.get i ≠ some (.replacing w) := fun w he => nomatch hi.symm.trans he
      have hversion := h.changed i _ hi
      exact
        { h with
          writing := fun j w saved hj => by
            rw [Dict.get_set] at hj
            split at hj
            · cases hj
              refine ⟨le_refl _, fun _ => ?_⟩
              rw [if_neg (Nat.pos_iff_ne_zero.mp hversion)]
            · exact h.writing j w saved hj
          changed := fun _ _ _ => hversion
          due := .inr (.inr ⟨i, _, (Dict.get_set _ _ _ _).trans (if_pos rfl), rfl⟩)
          settled := h.settled.imp_right fun ⟨ht, j, w, hj⟩ => ⟨ht, j, w, get_other hj (hne w)⟩
          replacing := fun j w hj => by
            rw [Dict.get_set] at hj
            split at hj
            · cases hj
            · exact h.replacing j w hj }
  · exact h

theorem write_inv {s : ChessLive Position Move} (h : LiveInv lib s) (i : ℕ) (wrote : Wrote)
    (ho : InOrder lib s (.write i wrote)) : LiveInv lib (s.step lib (.write i wrote)) := by
  rw [ChessLive.step]
  split
  · next v saved hi =>
      obtain ⟨rfl, hlater⟩ := ho saved (by rw [hi]; rfl)
      have hfresh := h.writing i v saved hi
      exact
        { h with
          written := hfresh
          writing := fun j w saved' hj => by
            rw [Dict.get_set] at hj
            split at hj
            · cases hj
            · exact h.writing j w saved' hj
          changed := fun _ _ _ => h.changed i _ hi
          due := by
            rcases h.due with hzero | hwritten | ⟨j, q, hj, hq⟩
            · exact .inl hzero
            · exact .inr (.inl (le_antisymm hfresh.1 (hwritten ▸ hlater)))
            · by_cases hji : j = i
              · subst hji
                cases hi.symm.trans hj
                exact .inr (.inl hq)
              · exact .inr (.inr ⟨j, q, (Dict.get_set _ _ _ _).trans ((if_neg hji).trans hj), hq⟩)
          settled := .inr ⟨rfl, i, v, (Dict.get_set _ _ _ _).trans (if_pos rfl)⟩
          replacing := fun _ _ _ => .inl rfl }
  · exact h

theorem replace_inv {s : ChessLive Position Move} (h : LiveInv lib s) (i : ℕ) (ok : Bool)
    (ho : InOrder lib s (.replace i ok)) : LiveInv lib (s.step lib (.replace i ok)) := by
  rw [ChessLive.step]
  cases hi : s.calls.get i with
  | none => exact h
  | some phase =>
      cases phase with
      | replacing v =>
          obtain rfl : ok = true := ho (by rw [hi]; rfl)
          have hwriting : ∀ j w saved, (s.calls.set i (.replying v)).get j = some (.writing w saved) →
              Fresh lib s.games s.version saved := by
            intro j w saved hj
            rw [Dict.get_set] at hj
            split at hj
            · cases hj
            · exact h.writing j w saved hj
          have hdue := due_set (.replying v) hi (fun hp => hp) h.due
          rcases h.replacing i v hi with htmp | ⟨htmp, hfile⟩
          · rw [htmp]
            exact
              { h with
                file := h.written
                writing := hwriting
                changed := fun _ _ _ => h.changed i _ hi
                due := hdue
                settled := .inl rfl
                replacing := fun _ _ _ => .inr ⟨rfl, rfl⟩ }
          · -- another call has put it in place
            rw [htmp]
            exact
              { h with
                writing := hwriting
                changed := fun _ _ _ => h.changed i _ hi
                due := hdue
                settled := .inl hfile
                replacing := fun _ _ _ => .inr ⟨rfl, hfile⟩ }
      | saving _ | writing _ _ | replying _ => exact h

theorem reply_inv {s : ChessLive Position Move} (h : LiveInv lib s) (i : ℕ) (ok : Bool) :
    LiveInv lib (s.step lib (.reply i ok)) := by
  rw [ChessLive.step]
  split
  · next v hi =>
      have hpop : ∀ {j : ℕ} {q : CallPhase}, (s.calls.pop i).get j = some q → s.calls.get j = some q := by
        intro j q hj
        rw [Dict.get_pop] at hj
        split at hj
        · cases hj
        · exact hj
      have hstay : ∀ {j : ℕ} {q : CallPhase}, s.calls.get j = some q → q ≠ .replying v →
          (s.calls.pop i).get j = some q := by
        intro j q hj hq
        rw [Dict.get_pop, if_neg]
        · exact hj
        · rintro rfl
          cases hi.symm.trans hj
          exact hq rfl
      exact
        { h with
          logged := by
            cases ok with
            | false => exact h.logged
            | true => exact h.logged
          writing := fun j w saved hj => h.writing j w saved (hpop hj)
          changed := fun j q hj => h.changed j q (hpop hj)
          due := by
            refine h.due.imp_right fun hdue => hdue.imp_right fun hcall => ?_
            obtain ⟨j, q, hj, hq⟩ := hcall
            exact ⟨j, q, hstay hj fun he => (he ▸ hq : Pending s.version (.replying v)), hq⟩
          settled := by
            refine h.settled.imp_right fun hwrite => ?_
            obtain ⟨ht, j, w, hj⟩ := hwrite
            exact ⟨ht, j, w, hstay hj fun he => by cases he⟩
          replacing := fun j w hj => h.replacing j w (hpop hj) }
  · exact h

theorem read_inv {s : ChessLive Position Move} (h : LiveInv lib s) : LiveInv lib (s.step lib .read) := by
  rw [ChessLive.step]
  split
  · exact
      { h with
        held := fun saved hs => by
          cases hs
          exact h.file }
  · exact h

theorem update_inv (hlib : lib.Correct) {s : ChessLive Position Move} (h : LiveInv lib s)
    (ho : InOrder lib s .update) : LiveInv lib (s.step lib .update) := by
  rw [ChessLive.step]
  cases hheld : s.held with
  | none => exact h
  | some saved =>
      dsimp only
      rw [(h.held saved hheld).load hlib h.valid (ho saved hheld)]
      exact { h with held := nofun }

theorem step_inv (hlib : lib.Correct) (s : ChessLive Position Move) (m : LiveMove) (h : LiveInv lib s)
    (ho : InOrder lib s m) : LiveInv lib (s.step lib m) := by
  cases m with
  | call i call => exact call_inv hlib h i call
  | snapshot i => exact snapshot_inv h i
  | write i wrote => exact write_inv h i wrote ho
  | replace i ok => exact replace_inv h i ok ho
  | reply i ok => exact reply_inv h i ok
  | read => exact read_inv h
  | update => exact update_inv hlib h ho

theorem start_inv (hlib : lib.Correct) (file : Option PyVal) (tmp : Option (Option PyVal)) :
    LiveInv lib (ChessLive.start lib file tmp) := by
  have hfresh : Fresh lib ((loadFile lib file).getD .empty) 0 ⟨file, 0⟩ := by
    refine ⟨le_refl _, fun _ => ?_⟩
    rw [if_pos rfl]
    intro loaded hload
    rw [hload]
    rfl
  exact
    { valid := by
        show ValidGames lib ((loadFile lib file).getD .empty)
        cases hload : loadFile lib file with
        | none => exact valid_empty
        | some games => exact loadFile_valid hlib hload
      logged := fun _ hne => absurd rfl hne
      file := hfresh
      written := hfresh
      held := nofun
      writing := nofun
      changed := nofun
      due := .inl rfl
      settled := .inl rfl
      replacing := nofun }

/-- What is saved of a table has the moves of its games. -/
theorem payload_has {games : Games Position Move} (hv : ValidGames lib games) {gameId : String}
    {game : ChessGame Position Move} (hget : games.get gameId = some game) {moves : List Move}
    (hmoves : moves.Sublist game.moves) : FileHas lib (some (payload lib games)) gameId moves := by
  refine ⟨_, savedEntry lib game, _, rfl, ?_, rfl, hmoves.map fun m => PyVal.str (lib.uci m)⟩
  have htake : games.items.take maxGames = games.items := List.take_of_length_le hv.room
  rw [htake]
  exact (Dict.lookup_map (fun game => PyVal.dict (savedEntry lib game)) gameId games.items).trans
    (congrArg (Option.map fun game => PyVal.dict (savedEntry lib game)) hget)

/-- **Nothing is lost.** -/
theorem nothing_lost (hlib : lib.Correct) (file : Option PyVal) (tmp : Option (Option PyVal)) (moves : List LiveMove)
    (h : Along (ChessLive.step lib) (InOrder lib) (ChessLive.start lib file tmp) moves) :
    NothingLost lib (run (ChessLive.step lib) (ChessLive.start lib file tmp) moves) := by
  have hinv := run_invariant (step_inv hlib) moves (start_inv hlib file tmp) h
  generalize run (ChessLive.step lib) (ChessLive.start lib file tmp) moves = s at hinv
  rintro ⟨hcalls, -⟩ gameId hne
  have hnone : ∀ i, s.calls.get i = none := by
    intro i
    unfold Dict.get
    rw [List.isEmpty_iff.mp hcalls]
    rfl
  have hsub := movesOf_sublist (hasReturned s.log) gameId s.log
  obtain ⟨hversion, game, hget, hsuffix⟩ := hinv.logged gameId fun hnil => hne (List.sublist_nil.mp (hnil ▸ hsub))
  have hmoves : (s.okMoves gameId).Sublist game.moves := hsub.trans hsuffix.sublist
  -- no call is left that could still save or put in place
  have hfile : s.file = s.written := by
    rcases hinv.settled with hfile | ⟨-, i, v, hi⟩
    · exact hfile
    · exact nomatch (hnone i).symm.trans hi
  have hwritten : s.written.version = s.version := by
    rcases hinv.due with hzero | hwritten | ⟨i, q, hi, -⟩
    · exact absurd hzero hversion.ne'
    · exact hwritten
    · exact nomatch (hnone i).symm.trans hi
  have hfresh := hinv.toStoredFresh.written.2 hwritten
  rw [if_neg hversion.ne'] at hfresh
  refine ⟨⟨game, hget, hmoves⟩, ?_⟩
  rw [hfile, hfresh]
  exact payload_has hinv.valid hget hmoves

end

/-- A refresh reads after a move has been played and before it is saved, and updates after the call has returned. -/
def refreshed : List LiveMove :=
  [.call 0 (.newGame "live-1"), .snapshot 0, .write 0 .ok, .replace 0 true, .reply 0 true,
    .call 0 (.playMove "live-1" "e4"), .read, .snapshot 0, .write 0 .ok, .replace 0 true, .reply 0 true, .update]

theorem move_rolled_back : pawnChess.Correct ∧
    ¬ NothingLost pawnChess (run (ChessLive.step pawnChess) (ChessLive.start pawnChess none none) refreshed) := by
  refine ⟨pawnChess_correct, fun h => ?_⟩
  have hidle : (run (ChessLive.step pawnChess) (ChessLive.start pawnChess none none) refreshed).Idle := by
    decide +kernel
  have hmoves : (run (ChessLive.step pawnChess) (ChessLive.start pawnChess none none) refreshed).okMoves "live-1" =
      [()] := by decide +kernel
  have hgame : (run (ChessLive.step pawnChess) (ChessLive.start pawnChess none none) refreshed).games.get "live-1" =
      some { root := .standard false, moves := [] } := by decide +kernel
  obtain ⟨⟨game, hget, hsub⟩, -⟩ := h hidle "live-1" (by rw [hmoves]; exact List.cons_ne_nil _ _)
  cases hgame.symm.trans hget
  rw [hmoves] at hsub
  cases hsub

/-- A move and a refresh, one after the other. -/
theorem nothing_lost_pawn : NothingLost pawnChess
    (run (ChessLive.step pawnChess) (ChessLive.start pawnChess none none)
      [.call 0 (.newGame "live-1"), .snapshot 0, .write 0 .ok, .replace 0 true, .reply 0 true,
        .call 0 (.playMove "live-1" "e4"), .snapshot 0, .write 0 .ok, .replace 0 true, .reply 0 true,
        .read, .update]) := by
  refine nothing_lost pawnChess_correct none none _ ?_
  decide +kernel

end LoraMesh

import LoraMesh.Host.Python
import LoraMesh.Lib.Dict
import LoraMesh.Lib.Runs

/-!
# Host — Chess

The games of `host/meshctl/chess_live.py`: the table of boards, the tools that change it, and the state file.

* `ChessLib`: what is used of python-chess, and `ChessLib.Correct`, what is relied on.
* `change`: what a tool does to the table under the lock.
* `payload`, `loadFile`: `_save` and `_load`, between the table and what is in the file.
* `load_payload`: a table whose games with moves are from the standard position comes back as it was.
* `games_kept`: so does every table, while moves are played in such games only.
-/

namespace LoraMesh

/-! ### Games -/

/-- Why `parse_uci` raises: a `ValueError`, or an exception that is not caught. -/
inductive UciError where
  | value
  | escapes

/-- What is used of python-chess.  Positions that are `==` are one. -/
structure ChessLib (Position Move : Type) where
  /-- `chess.Board()`. -/
  start : Position
  /-- `chess.Board(fen)`; none is a `ValueError`. -/
  ofFen : String → Option Position
  fen : Position → String
  /-- None is a `ValueError`. -/
  parseSan : Position → String → Option Move
  parseUci : Position → PyVal → Except UciError Move
  uci : Move → String
  /-- None is an `AssertionError`. -/
  san : Position → Move → Option String
  push : Position → Move → Position

/-- A board: the position that it was made with, and the moves that have been pushed. -/
structure ChessGame (Position Move : Type) where
  root : Position
  moves : List Move
  deriving DecidableEq

/-- `GAMES`. -/
abbrev Games (Position Move : Type) := Dict String (ChessGame Position Move)

abbrev maxGames : ℕ := 64

abbrev maxMoves : ℕ := 600

abbrev maxFenLen : ℕ := 200

abbrev maxMoveLen : ℕ := 16

def startingFen : String := "rnbqkbnr/pppppppp/8/8/8/8/PPPPPPPP/RNBQKBNR w KQkq - 0 1"

/-- `GAME_ID_RE` matches; its `$` also stands before a newline at the end. -/
def checkGameId (gameId : String) : Bool :=
  let name := gameId.toList
  let body := if name.getLast? = some '\n' then name.dropLast else name
  1 ≤ body.length && body.length ≤ 64 && body.all fun c => c.isAlphanum || c == '_' || c == '-'

section

variable {Position Move : Type} (lib : ChessLib Position Move)

def ChessLib.position (game : ChessGame Position Move) : Position := game.moves.foldl lib.push game.root

/-! ### The state file -/

/-- What is saved of a game. -/
def savedEntry (game : ChessGame Position Move) : Fields :=
  [("fen", .str (lib.fen (lib.position game))), ("moves", .list (game.moves.map fun m => .str (lib.uci m)))]

/-- `payload`, as it is read again. -/
def payload (games : Games Position Move) : PyVal :=
  .dict ((games.items.take maxGames).map fun g => (g.1, .dict (savedEntry lib g.2)))

/-- `board.push_uci(uci)`, one after the other. -/
def replay (board : ChessGame Position Move) : List PyVal → Except UciError (ChessGame Position Move)
  | [] => .ok board
  | uci :: ucis =>
    match lib.parseUci (lib.position board) uci with
    | .ok m => replay { board with moves := board.moves ++ [m] } ucis
    | .error e => .error e

def fenGame (fen : String) : Except UciError (ChessGame Position Move) :=
  if fen.length > maxFenLen then .error .value
  else
    match lib.ofFen fen with
    | some p => .ok { root := p, moves := [] }
    | none => .error .value

/-- The board of an entry; where `value`, the entry is left out. -/
def loadEntry : PyVal → Except UciError (ChessGame Position Move)
  | .dict entry =>
    match (Fields.get entry "moves").getD (.list []) with
    | .list [] =>
      match (Fields.get entry "fen").getD (.str startingFen) with
      | .str fen => fenGame lib fen
      | _ => .error .value
    | .list moves => replay lib { root := lib.start, moves := [] } (moves.take maxMoves)
    | _ => .error .value
  | .str fen => fenGame lib fen
  | _ => .error .value

def loadEntries (loaded : Games Position Move) : Fields → Except UciError (Games Position Move)
  | [] => .ok loaded
  | (gameId, entry) :: items =>
    if checkGameId gameId then
      match loadEntry lib entry with
      | .ok game => loadEntries (loaded.set gameId game) items
      | .error .value => loadEntries loaded items
      | .error .escapes => .error .escapes
    else loadEntries loaded items

/-- `_load`, from what is in the file, if it can be read; none where the table stays as it is. -/
def loadFile : Option PyVal → Option (Games Position Move)
  | some (.dict data) => (loadEntries lib .empty (data.take maxGames)).toOption
  | _ => none

/-! ### The tools -/

inductive ChessCall where
  | newGame (gameId : String)
  | setFen (gameId fen : String)
  | playMove (gameId move : String)

def ChessCall.gameId : ChessCall → String
  | .newGame gameId => gameId
  | .setFen gameId _ => gameId
  | .playMove gameId _ => gameId

/-- What a tool has done to its game. -/
inductive GameChange (Move : Type) where
  | replaced
  | pushed (m : Move)

/-- `GAMES[game_id] = board`, while there is room. -/
def putGame (games : Games Position Move) (gameId : String) (board : Position) :
    Option (Games Position Move × GameChange Move) :=
  if games.get gameId = none ∧ maxGames ≤ games.items.length then none
  else some (games.set gameId { root := board, moves := [] }, .replaced)

/-- SAN, or else UCI. -/
def parseMove (p : Position) (move : String) : Option Move :=
  match lib.parseSan p move with
  | some m => some m
  | none => (lib.parseUci p (.str move)).toOption

def pushMove (games : Games Position Move) (gameId move : String) :
    Option (Games Position Move × GameChange Move) := do
  let game ← games.get gameId
  if maxMoves ≤ game.moves.length then none
  else
    let parsed ← parseMove lib (lib.position game) move
    let _ ← lib.san (lib.position game) parsed
    return (games.set gameId { game with moves := game.moves ++ [parsed] }, .pushed parsed)

/-- What a call does under the lock; none where it is refused or raises. -/
def change (games : Games Position Move) (call : ChessCall) : Option (Games Position Move × GameChange Move) :=
  if checkGameId call.gameId then
    match call with
    | .newGame gameId => putGame games gameId lib.start
    | .setFen gameId fen =>
      if fen.length > maxFenLen then none
      else (lib.ofFen fen).bind (putGame games gameId)
    | .playMove gameId move => if move.length > maxMoveLen then none else pushMove lib games gameId move
  else none

/-- A call by itself. -/
def callTool (games : Games Position Move) (call : ChessCall) : Games Position Move :=
  ((change lib games call).map Prod.fst).getD games

/-! ### The list of moves -/

/-- Each move in the position where it is played. -/
def render (p : Position) : List Move → Option (List String)
  | [] => some []
  | m :: ms => do
    let s ← lib.san p m
    let out ← render (lib.push p m) ms
    return s :: out

/-- `_moves_san`. -/
def movesSan (game : ChessGame Position Move) : Option (List String) := render lib lib.start game.moves

/-! ### What is relied on -/

/-- A position is read again from its FEN, and a move that has been parsed from its UCI. -/
structure ChessLib.Correct : Prop where
  fen_start : lib.fen lib.start = startingFen
  ofFen_fen : ∀ p, lib.ofFen (lib.fen p) = some p
  parse_san : ∀ p s m, lib.parseSan p s = some m → lib.parseUci p (.str (lib.uci m)) = .ok m
  parse_uci : ∀ p v m, lib.parseUci p v = .ok m → lib.parseUci p (.str (lib.uci m)) = .ok m

/-- What is saved of a table is loaded with the same positions and moves, and the moves are shown from where each
game has started. -/
def GamesKept (games : Games Position Move) : Prop :=
  ∃ loaded, loadFile lib (some (payload lib games)) = some loaded ∧ ∀ gameId game, games.get gameId = some game →
    (∃ board, loaded.get gameId = some board ∧ lib.position board = lib.position game ∧ board.moves = game.moves) ∧
      movesSan lib game = render lib game.root game.moves

/-- A move that is played is played in a game from the standard position, and a position that is mirrored has a
FEN that `_load` takes. -/
def Standard (games : Games Position Move) (call : ChessCall) : Prop :=
  (change lib games call).isSome →
    match call with
    | .newGame _ => True
    | .setFen _ fen => ∀ p, lib.ofFen fen = some p → (lib.fen p).length ≤ maxFenLen
    | .playMove gameId _ => ∀ game, games.get gameId = some game → game.root = lib.start

/-! ### What a table holds -/

/-- Each move is one that is parsed from its UCI, in the position where it is played. -/
def Accepted (p : Position) : List Move → Prop
  | [] => True
  | m :: ms => lib.parseUci p (.str (lib.uci m)) = .ok m ∧ Accepted (lib.push p m) ms

structure ValidGame (game : ChessGame Position Move) : Prop where
  few : game.moves.length ≤ maxMoves
  accepted : Accepted lib game.root game.moves

structure ValidGames (games : Games Position Move) : Prop where
  room : games.items.length ≤ maxGames
  ids : ∀ g ∈ games.items, checkGameId g.1 = true
  games : ∀ g ∈ games.items, ValidGame lib g.2

/-- What is saved of the game says where it has started. -/
structure Rooted (game : ChessGame Position Move) : Prop where
  mirrored : game.moves = [] → (lib.fen game.root).length ≤ maxFenLen
  played : game.moves ≠ [] → game.root = lib.start

instance [DecidableEq Position] (game : ChessGame Position Move) : Decidable (Rooted lib game) :=
  decidable_of_iff (_ ∧ _) ⟨fun h => ⟨h.1, h.2⟩, fun h => ⟨h.1, h.2⟩⟩

variable {lib}

theorem accepted_append {m : Move} : ∀ {ms : List Move} {p : Position}, Accepted lib p ms →
    lib.parseUci (ms.foldl lib.push p) (.str (lib.uci m)) = .ok m → Accepted lib p (ms ++ [m])
  | [], _, _, hm => ⟨hm, trivial⟩
  | _ :: _, _, h, hm => ⟨h.1, accepted_append h.2 hm⟩

theorem position_push (game : ChessGame Position Move) (m : Move) :
    lib.position { game with moves := game.moves ++ [m] } = lib.push (lib.position game) m := by
  unfold ChessLib.position
  rw [List.foldl_append]
  rfl

/-- Moves that are accepted are replayed. -/
theorem replay_accepted : ∀ {ms : List Move} {board : ChessGame Position Move}, Accepted lib (lib.position board) ms →
    replay lib board (ms.map fun m => .str (lib.uci m)) = .ok { board with moves := board.moves ++ ms } := by
  intro ms
  induction ms with
  | nil =>
      intro board _
      rw [List.append_nil]
      rfl
  | cons m ms ih =>
      intro board h
      rw [List.map_cons, replay, h.1]
      dsimp only
      rw [ih (by rw [position_push]; exact h.2)]
      simp only [List.append_assoc, List.singleton_append]

/-- A game that says where it has started is loaded as it was saved. -/
theorem loadEntry_saved (hlib : lib.Correct) {game : ChessGame Position Move} (hv : ValidGame lib game)
    (hr : Rooted lib game) :
    loadEntry lib (.dict (savedEntry lib game)) = .ok game := by
  obtain ⟨root, moves⟩ := game
  cases moves with
  | nil =>
      have hfen : ¬ maxFenLen < (lib.fen root).length := Nat.not_lt.mpr (hr.mirrored rfl)
      show fenGame lib (lib.fen root) = _
      rw [fenGame, if_neg hfen, hlib.ofFen_fen]
  | cons m ms =>
      obtain rfl : root = lib.start := hr.played (List.cons_ne_nil _ _)
      have hlen : ((m :: ms).map fun m => PyVal.str (lib.uci m)).length ≤ maxMoves := by
        rw [List.length_map]
        exact hv.few
      show replay lib _ (((m :: ms).map fun m => PyVal.str (lib.uci m)).take maxMoves) = _
      rw [List.take_of_length_le hlen]
      exact replay_accepted hv.accepted

theorem loadEntries_saved (hlib : lib.Correct) : ∀ {items : List (String × ChessGame Position Move)}
    {loaded : Games Position Move}, ((loaded.items ++ items).map Prod.fst).Nodup →
    (∀ g ∈ items, checkGameId g.1 = true ∧ ValidGame lib g.2 ∧ Rooted lib g.2) →
    ∃ games, loadEntries lib loaded (items.map fun g => (g.1, .dict (savedEntry lib g.2))) = .ok games ∧
      games.items = loaded.items ++ items := by
  intro items
  induction items with
  | nil => exact fun {loaded} _ _ => ⟨loaded, rfl, (List.append_nil _).symm⟩
  | cons g items ih =>
      intro loaded hkeys hgood
      obtain ⟨hid, hv, hr⟩ := hgood g List.mem_cons_self
      -- the game is new among what has been loaded, so that it comes last
      have hnew : g.1 ∉ loaded.items.map Prod.fst := by
        rw [List.map_append, List.map_cons, List.nodup_append] at hkeys
        exact fun hmem => hkeys.2.2 _ hmem _ List.mem_cons_self rfl
      have hitems : (loaded.set g.1 g.2).items = loaded.items ++ [g] := Dict.items_alter_new hnew _ _
      obtain ⟨games, hload, heq⟩ := @ih (loaded.set g.1 g.2)
        (by rw [hitems, List.append_assoc]; exact hkeys) fun g' hg' => hgood g' (List.mem_cons_of_mem _ hg')
      refine ⟨games, ?_, by rw [heq, hitems, List.append_assoc]; rfl⟩
      rw [List.map_cons, loadEntries, if_pos hid, loadEntry_saved hlib hv hr]
      exact hload

/-- **Loaded as saved.** -/
theorem load_payload (hlib : lib.Correct) {games : Games Position Move} (hv : ValidGames lib games)
    (hr : ∀ g ∈ games.items, Rooted lib g.2) : loadFile lib (some (payload lib games)) = some games := by
  obtain ⟨loaded, hload, heq⟩ := @loadEntries_saved _ _ _ hlib games.items .empty games.nodup
    fun g hg => ⟨hv.ids g hg, hv.games g hg, hr g hg⟩
  have htake : games.items.take maxGames = games.items := List.take_of_length_le hv.room
  unfold payload loadFile
  rw [htake]
  dsimp only
  rw [List.take_of_length_le (by rw [List.length_map]; exact hv.room), hload, Dict.ext heq]
  rfl

/-! ### What is loaded -/

theorem set_valid {games : Games Position Move} (hv : ValidGames lib games) {gameId : String}
    {game : ChessGame Position Move} (hid : checkGameId gameId = true) (hgame : ValidGame lib game)
    (hroom : games.get gameId = none → games.items.length < maxGames) : ValidGames lib (games.set gameId game) where
  room := by
    rw [Dict.length_set]
    split
    · next hn => exact hroom hn
    · exact hv.room
  ids := by
    intro g hg
    rcases Dict.mem_set hg with rfl | hg
    · exact hid
    · exact hv.ids g hg
  games := by
    intro g hg
    rcases Dict.mem_set hg with rfl | hg
    · exact hgame
    · exact hv.games g hg

theorem replay_valid (hlib : lib.Correct) : ∀ {ucis : List PyVal} {board game : ChessGame Position Move},
    Accepted lib board.root board.moves → replay lib board ucis = .ok game →
    Accepted lib game.root game.moves ∧ game.moves.length = board.moves.length + ucis.length := by
  intro ucis
  induction ucis with
  | nil =>
      intro board game hb h
      cases h
      exact ⟨hb, rfl⟩
  | cons uci ucis ih =>
      intro board game hb h
      rw [replay] at h
      cases hm : lib.parseUci (lib.position board) uci with
      | error e =>
          rw [hm] at h
          cases h
      | ok m =>
          rw [hm] at h
          obtain ⟨hacc, hlen⟩ := ih (accepted_append hb (hlib.parse_uci _ _ _ hm)) h
          refine ⟨hacc, ?_⟩
          simp only [hlen, List.length_append, List.length_cons, List.length_nil]
          omega

theorem loadEntry_valid (hlib : lib.Correct) {entry : PyVal} {game : ChessGame Position Move}
    (h : loadEntry lib entry = .ok game) : ValidGame lib game := by
  have hfen : ∀ fen, fenGame lib fen = .ok game → ValidGame lib game := by
    intro fen hf
    unfold fenGame at hf
    split at hf
    · cases hf
    · split at hf
      · cases hf
        exact ⟨Nat.zero_le _, trivial⟩
      · cases hf
  unfold loadEntry at h
  split at h
  · split at h
    · split at h
      · exact hfen _ h
      · cases h
    · have hempty : Accepted lib lib.start [] := trivial
      obtain ⟨hacc, hlen⟩ := replay_valid hlib hempty h
      refine ⟨?_, hacc⟩
      rw [hlen, List.length_take]
      exact (Nat.zero_add _).le.trans (Nat.min_le_left _ _)
    · cases h
  · exact hfen _ h
  · cases h

theorem loadEntries_valid (hlib : lib.Correct) : ∀ {items : Fields} {loaded games : Games Position Move},
    ValidGames lib loaded → loaded.items.length + items.length ≤ maxGames →
    loadEntries lib loaded items = .ok games → ValidGames lib games := by
  intro items
  induction items with
  | nil =>
      intro loaded games hv _ h
      cases h
      exact hv
  | cons item items ih =>
      intro loaded games hv hroom h
      rw [List.length_cons] at hroom
      rw [loadEntries] at h
      split at h
      · next hid =>
          split at h
          · next game hentry =>
              refine ih (set_valid hv hid (loadEntry_valid hlib hentry) fun _ => by omega) ?_ h
              rw [Dict.length_set]
              split <;> omega
          · exact ih hv (by omega) h
          · cases h
      · exact ih hv (by omega) h

theorem valid_empty : ValidGames lib (.empty : Games Position Move) := ⟨Nat.zero_le _, nofun, nofun⟩

/-- A table that is loaded is one that could have been played. -/
theorem loadFile_valid (hlib : lib.Correct) {content : Option PyVal} {games : Games Position Move}
    (h : loadFile lib content = some games) : ValidGames lib games := by
  unfold loadFile at h
  split at h
  · next data =>
      cases hload : loadEntries lib .empty (data.take maxGames) with
      | error e =>
          rw [hload] at h
          cases h
      | ok loaded =>
          rw [hload] at h
          cases h
          refine loadEntries_valid hlib valid_empty ?_ hload
          rw [List.length_take]
          exact (Nat.zero_add _).le.trans (Nat.min_le_left _ _)
  · cases h

/-! ### What a tool keeps -/

theorem putGame_eq {games games' : Games Position Move} {gameId : String} {board : Position} {ch : GameChange Move}
    (h : putGame games gameId board = some (games', ch)) :
    games' = games.set gameId { root := board, moves := [] } ∧ ch = .replaced ∧
      (games.get gameId = none → games.items.length < maxGames) := by
  unfold putGame at h
  split at h
  · cases h
  · next hroom =>
      cases h
      exact ⟨rfl, rfl, fun hn => Nat.not_le.mp fun hfull => hroom ⟨hn, hfull⟩⟩

theorem pushMove_eq (hlib : lib.Correct) {games games' : Games Position Move} {gameId move : String}
    {ch : GameChange Move} (h : pushMove lib games gameId move = some (games', ch)) :
    ∃ game m, games.get gameId = some game ∧ game.moves.length < maxMoves ∧
      lib.parseUci (lib.position game) (.str (lib.uci m)) = .ok m ∧
      games' = games.set gameId { game with moves := game.moves ++ [m] } ∧ ch = .pushed m := by
  unfold pushMove at h
  obtain ⟨game, hgame, h⟩ := Option.bind_eq_some_iff.mp h
  split at h
  · cases h
  · next hfew =>
      obtain ⟨m, hm, h⟩ := Option.bind_eq_some_iff.mp h
      obtain ⟨_, _, h⟩ := Option.bind_eq_some_iff.mp h
      cases h
      refine ⟨game, m, hgame, Nat.not_le.mp hfew, ?_, rfl, rfl⟩
      unfold parseMove at hm
      split at hm
      · next hsan =>
          cases hm
          exact hlib.parse_san _ _ _ hsan
      · cases huci : lib.parseUci (lib.position game) (.str move) with
        | error e =>
            rw [huci] at hm
            cases hm
        | ok m' =>
            rw [huci] at hm
            cases hm
            exact hlib.parse_uci _ _ _ huci

/-- What a call may do: a new board, or a move that can be parsed again. -/
theorem change_eq (hlib : lib.Correct) {games games' : Games Position Move} {call : ChessCall} {ch : GameChange Move}
    (h : change lib games call = some (games', ch)) :
    checkGameId call.gameId = true ∧
      ((∃ p, games' = games.set call.gameId { root := p, moves := [] } ∧ ch = .replaced ∧
          (games.get call.gameId = none → games.items.length < maxGames)) ∨
        ∃ game m, games.get call.gameId = some game ∧ game.moves.length < maxMoves ∧
          lib.parseUci (lib.position game) (.str (lib.uci m)) = .ok m ∧
          games' = games.set call.gameId { game with moves := game.moves ++ [m] } ∧ ch = .pushed m) := by
  unfold change at h
  split at h
  · next hid =>
      refine ⟨hid, ?_⟩
      cases call with
      | newGame gameId => exact .inl ⟨_, putGame_eq h⟩
      | setFen gameId fen =>
          dsimp only at h
          split at h
          · cases h
          · obtain ⟨p, -, h⟩ := Option.bind_eq_some_iff.mp h
            exact .inl ⟨p, putGame_eq h⟩
      | playMove gameId move =>
          dsimp only at h
          split at h
          · cases h
          · exact .inr (pushMove_eq hlib h)
  · cases h

theorem change_valid (hlib : lib.Correct) {games games' : Games Position Move} {call : ChessCall}
    {ch : GameChange Move} (hv : ValidGames lib games) (h : change lib games call = some (games', ch)) :
    ValidGames lib games' := by
  obtain ⟨hid, ⟨p, rfl, -, hroom⟩ | ⟨game, m, hget, hfew, hm, rfl, -⟩⟩ := change_eq hlib h
  · exact set_valid hv hid ⟨Nat.zero_le _, trivial⟩ hroom
  · have hgame := hv.games _ (Dict.get_eq_some.mp hget)
    refine set_valid hv hid ⟨?_, accepted_append hgame.accepted hm⟩ fun hn => nomatch hget.symm.trans hn
    rw [List.length_append]
    exact hfew

theorem set_rooted {games : Games Position Move} (hr : ∀ g ∈ games.items, Rooted lib g.2) {gameId : String}
    {game : ChessGame Position Move} (hgame : Rooted lib game) :
    ∀ g ∈ (games.set gameId game).items, Rooted lib g.2 := by
  intro g hg
  rcases Dict.mem_set hg with rfl | hg
  · exact hgame
  · exact hr g hg

theorem rooted_new {p : Position} (h : (lib.fen p).length ≤ maxFenLen) :
    Rooted lib { root := p, moves := [] } := ⟨fun _ => h, fun hne => absurd rfl hne⟩

theorem change_rooted (hlib : lib.Correct) {games games' : Games Position Move} {call : ChessCall}
    {ch : GameChange Move} (hr : ∀ g ∈ games.items, Rooted lib g.2) (hs : Standard lib games call)
    (h : change lib games call = some (games', ch)) : ∀ g ∈ games'.items, Rooted lib g.2 := by
  have hs := hs (Option.isSome_iff_exists.mpr ⟨_, h⟩)
  unfold change at h
  split at h
  · cases call with
    | newGame gameId =>
        obtain ⟨rfl, -⟩ := putGame_eq h
        refine set_rooted hr (rooted_new ?_)
        rw [hlib.fen_start]
        decide
    | setFen gameId fen =>
        dsimp only at h
        split at h
        · cases h
        · obtain ⟨p, hp, h⟩ := Option.bind_eq_some_iff.mp h
          obtain ⟨rfl, -⟩ := putGame_eq h
          exact set_rooted hr (rooted_new (hs p hp))
    | playMove gameId move =>
        dsimp only at h
        split at h
        · cases h
        · obtain ⟨game, m, hget, -, -, rfl, -⟩ := pushMove_eq hlib h
          refine set_rooted hr ⟨fun hnil => ?_, fun _ => hs game hget⟩
          exact absurd hnil (List.append_ne_nil_of_right_ne_nil _ (List.cons_ne_nil _ _))
  · cases h

/-- A table that can be saved is kept. -/
theorem kept_of_rooted (hlib : lib.Correct) {games : Games Position Move} (hv : ValidGames lib games)
    (hr : ∀ g ∈ games.items, Rooted lib g.2) : GamesKept lib games := by
  refine ⟨games, load_payload hlib hv hr, fun gameId game hget => ⟨⟨game, hget, rfl, rfl⟩, ?_⟩⟩
  have hroot := hr _ (Dict.get_eq_some.mp hget)
  unfold movesSan
  by_cases hmoves : game.moves = []
  · rw [hmoves]
    rfl
  · rw [hroot.played hmoves]

theorem callTool_keeps (hlib : lib.Correct) (games : Games Position Move) (call : ChessCall)
    (h : ValidGames lib games ∧ ∀ g ∈ games.items, Rooted lib g.2) (hs : Standard lib games call) :
    ValidGames lib (callTool lib games call) ∧ ∀ g ∈ (callTool lib games call).items, Rooted lib g.2 := by
  unfold callTool
  cases hc : change lib games call with
  | none => exact h
  | some c => exact ⟨change_valid hlib h.1 hc, change_rooted hlib h.2 hs hc⟩

/-- **Games are kept.**  While moves are played only in games from the standard position, and only positions with a
short FEN are mirrored, every table that is reached is loaded as it was saved. -/
theorem games_kept (hlib : lib.Correct) (calls : List ChessCall)
    (h : Along (callTool lib) (Standard lib) .empty calls) : GamesKept lib (run (callTool lib) .empty calls) := by
  obtain ⟨hv, hr⟩ := run_invariant (callTool_keeps hlib) calls ⟨valid_empty, nofun⟩ h
  exact kept_of_rooted hlib hv hr

end

/-! ### A small library -/

/-- Two positions, and what they are after the pawn's two steps. -/
inductive PawnPosition where
  | standard (moved : Bool)
  | mirrored (moved : Bool)
  deriving DecidableEq

def pawnFen : PawnPosition → String
  | .standard false => startingFen
  | .standard true => "rnbqkbnr/pppppppp/8/8/4P3/8/PPPP1PPP/RNBQKBNR b KQkq - 0 1"
  | .mirrored false => "8/8/8/8/8/8/4P3/4K2k w - - 0 1"
  | .mirrored true => "8/8/8/8/4P3/8/8/4K2k b - - 0 1"

/-- The pawn is where the move starts. -/
def pawnHome : PawnPosition → Bool
  | .standard moved => !moved
  | .mirrored moved => !moved

def pawnChess : ChessLib PawnPosition Unit where
  start := .standard false
  ofFen fen := [.standard false, .standard true, .mirrored false, .mirrored true].find? fun p => pawnFen p == fen
  fen := pawnFen
  parseSan p s := if s = "e4" ∧ pawnHome p then some () else none
  parseUci p v := match v with
    | .str s => if s = "e2e4" ∧ pawnHome p then .ok () else .error .value
    | _ => .error .escapes
  uci _ := "e2e4"
  san p _ := if pawnHome p then some "e4" else none
  push p _ := match p with
    | .standard _ => .standard true
    | .mirrored _ => .mirrored true

theorem pawnChess_correct : pawnChess.Correct where
  fen_start := rfl
  ofFen_fen p := by
    rcases p with (_ | _) | (_ | _) <;> decide +kernel
  parse_san p s m h := by
    have hhome : pawnHome p = true := by
      by_contra hn
      exact nomatch (if_neg fun hs => hn hs.2).symm.trans h
    exact if_pos ⟨rfl, hhome⟩
  parse_uci p v m h := by
    cases v with
    | str s =>
        have hhome : pawnHome p = true := by
          by_contra hn
          exact nomatch (if_neg fun hs => hn hs.2).symm.trans h
        exact if_pos ⟨rfl, hhome⟩
    | none | bool _ | int _ | float _ | list _ | dict _ => cases h

/-- A move in a mirrored position: the game that is loaded is another. -/
theorem mirrored_lost : pawnChess.Correct ∧ ¬ GamesKept pawnChess
    (run (callTool pawnChess) .empty
      [.setFen "live-1" "8/8/8/8/8/8/4P3/4K2k w - - 0 1", .playMove "live-1" "e4"]) := by
  refine ⟨pawnChess_correct, ?_⟩
  rintro ⟨loaded, hload, hkept⟩
  have hsaved : (run (callTool pawnChess) .empty
      [.setFen "live-1" "8/8/8/8/8/8/4P3/4K2k w - - 0 1", .playMove "live-1" "e4"]).get "live-1" =
      some { root := .mirrored false, moves := [()] } := by decide +kernel
  have hread : (loadFile pawnChess (some (payload pawnChess (run (callTool pawnChess) .empty
      [.setFen "live-1" "8/8/8/8/8/8/4P3/4K2k w - - 0 1", .playMove "live-1" "e4"])))).bind (·.get "live-1") =
      some { root := .standard false, moves := [()] } := by decide +kernel
  rw [hload, Option.bind_some] at hread
  obtain ⟨⟨board, hboard, hposition, -⟩, -⟩ := hkept _ _ hsaved
  cases hread.symm.trans hboard
  cases hposition

/-- A game from the standard position beside a mirrored position. -/
theorem games_kept_pawn : GamesKept pawnChess (run (callTool pawnChess) .empty
    [.newGame "live-1", .setFen "live-2" "8/8/8/8/8/8/4P3/4K2k w - - 0 1", .playMove "live-1" "e4"]) := by
  refine games_kept pawnChess_correct _ ⟨fun _ => trivial, fun _ p _ => ?_, fun _ game hgame => ?_, trivial⟩
  · rcases p with (_ | _) | (_ | _) <;> decide
  · have hsaved : (run (callTool pawnChess) .empty [.newGame "live-1",
        .setFen "live-2" "8/8/8/8/8/8/4P3/4K2k w - - 0 1"]).get "live-1" =
        some { root := .standard false, moves := [] } := by decide +kernel
    cases hsaved.symm.trans hgame
    rfl

end LoraMesh

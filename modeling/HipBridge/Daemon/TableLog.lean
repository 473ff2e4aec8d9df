import HipBridge.Daemon.AcceptLoop

/-!
# What the daemon still holds

The three tables belong to `main`, not to a connection: nothing in `handle_client` empties them.

* **`TableOp`** — what a served request did to a table, read off the request and its response.
* **`TableOf`** — a table that is what its operations made of it.
* **`tables_are_the_log`** — the daemon holds an id exactly when a client was given it and no client
  has freed it since, whoever was connected meanwhile; and no id is given out twice.
-/

namespace HipBridge.Daemon

open Lib Protocol

variable {D : Type}

/-! ## Operations on a table -/

inductive TableOp
  | insert (id : UInt64)
  | remove (id : UInt64)
deriving DecidableEq

/-- Given out, and not taken back since. -/
def Outstanding (ops : List TableOp) (id : UInt64) : Prop :=
  ∃ pre post, ops = pre ++ .insert id :: post ∧ .remove id ∉ post

/-- The ids given out, in order. -/
def givenOut (ops : List TableOp) : List UInt64 :=
  ops.filterMap fun
    | .insert id => some id
    | .remove _ => none

/-- What one operation makes of a table. -/
def TableStep (t t' : HandleTable Ptr) : Option TableOp → Prop
  | none => t' = t
  | some (.insert id) => id = t.nextId ∧ ∃ ptr, t' = (t.insert ptr).2
  | some (.remove id) => t' = (t.remove id).2

/-- An operation of a longer history is the last one, or one of the history before. -/
theorem concat_eq_append_cons {ops pre post : List TableOp} {op op' : TableOp}
    (h : ops ++ [op] = pre ++ op' :: post) :
    (op' = op ∧ post = []) ∨ ∃ post', post = post' ++ [op] ∧ ops = pre ++ op' :: post' := by
  rcases List.eq_nil_or_concat post with rfl | ⟨post', last, rfl⟩
  · obtain ⟨-, hlast⟩ := List.append_inj' h rfl
    exact Or.inl ⟨(List.singleton_inj.mp hlast).symm, rfl⟩
  · have hshape : pre ++ op' :: post'.concat last = (pre ++ op' :: post') ++ [last] := by simp
    obtain ⟨hops, hlast⟩ := List.append_inj' (h.trans hshape) rfl
    obtain rfl := List.singleton_inj.mp hlast
    exact Or.inr ⟨post', List.concat_eq_append, hops⟩

theorem outstanding_concat_insert (ops : List TableOp) (id id' : UInt64) :
    Outstanding (ops ++ [.insert id]) id' ↔ id' = id ∨ Outstanding ops id' := by
  constructor
  · rintro ⟨pre, post, hops, hpost⟩
    rcases concat_eq_append_cons hops with ⟨hlast, -⟩ | ⟨post', rfl, rfl⟩
    · cases hlast
      exact Or.inl rfl
    · exact Or.inr ⟨pre, post', rfl, fun h => hpost (List.mem_append_left _ h)⟩
  · rintro (rfl | ⟨pre, post, rfl, hpost⟩)
    · exact ⟨ops, [], rfl, List.not_mem_nil⟩
    · refine ⟨pre, post ++ [.insert id], by simp, fun h => ?_⟩
      rcases List.mem_append.mp h with hold | hnew
      · exact hpost hold
      · cases List.mem_singleton.mp hnew

theorem outstanding_concat_remove (ops : List TableOp) (id id' : UInt64) :
    Outstanding (ops ++ [.remove id]) id' ↔ id' ≠ id ∧ Outstanding ops id' := by
  constructor
  · rintro ⟨pre, post, hops, hpost⟩
    rcases concat_eq_append_cons hops with ⟨hlast, -⟩ | ⟨post', rfl, rfl⟩
    · cases hlast
    · refine ⟨?_, pre, post', rfl, fun h => hpost (List.mem_append_left _ h)⟩
      rintro rfl
      exact hpost (List.mem_append_right _ (List.mem_singleton.mpr rfl))
  · rintro ⟨hne, pre, post, rfl, hpost⟩
    refine ⟨pre, post ++ [.remove id], by simp, fun h => ?_⟩
    rcases List.mem_append.mp h with hold | hnew
    · exact hpost hold
    · cases List.mem_singleton.mp hnew
      exact hne rfl

/-- Where nothing is taken back, everything given out is outstanding. -/
theorem outstanding_iff_givenOut {ops : List TableOp} {id : UInt64}
    (h : ∀ op ∈ ops, ∃ id, op = .insert id) : Outstanding ops id ↔ id ∈ givenOut ops := by
  constructor
  · rintro ⟨pre, post, rfl, -⟩
    exact List.mem_filterMap.mpr ⟨.insert id, List.mem_append_right _ List.mem_cons_self, rfl⟩
  · intro hid
    obtain ⟨op, hop, hgiven⟩ := List.mem_filterMap.mp hid
    obtain ⟨id', rfl⟩ := h op hop
    obtain rfl : id' = id := Option.some.inj hgiven
    obtain ⟨pre, post, rfl⟩ := List.append_of_mem hop
    refine ⟨pre, post, rfl, fun hremove => ?_⟩
    obtain ⟨_, hno⟩ := h _ (List.mem_append_right _ (List.mem_cons_of_mem _ hremove))
    cases hno

/-- A table that is what its operations made of it. -/
structure TableOf (t : HandleTable Ptr) (ops : List TableOp) : Prop where
  held : ∀ id, (t.get id).isSome ↔ Outstanding ops id
  below : ∀ id ∈ givenOut ops, id.toNat < t.nextId.toNat
  nodup : (givenOut ops).Nodup

theorem tableOf_new : TableOf .new [] where
  held := fun id => by
    constructor
    · nofun
    · rintro ⟨pre, post, hops, -⟩
      cases pre <;> cases hops
  below := nofun
  nodup := .nil

/-- One more operation, while there is room for one more id. -/
theorem TableOf.step {t t' : HandleTable Ptr} {ops : List TableOp} {n : Nat}
    (h : TableOf t ops) (hids : t.IdsLeft (n + 1)) {op : Option TableOp}
    (hstep : TableStep t t' op) : TableOf t' (ops ++ op.toList) ∧ t'.IdsLeft n := by
  cases op with
  | none =>
    obtain rfl : t' = t := hstep
    rw [Option.toList_none, List.append_nil]
    exact ⟨h, hids.fewer⟩
  | some op =>
    cases op with
    | insert id =>
      obtain ⟨rfl, ptr, rfl⟩ := hstep
      have hnext := hids.toNat_nextId_insert ptr
      have hgiven : givenOut (ops ++ [.insert t.nextId]) = givenOut ops ++ [t.nextId] := by
        unfold givenOut
        rw [List.filterMap_append]
        rfl
      refine ⟨⟨fun id => ?_, fun id hid => ?_, ?_⟩, hids.insert ptr⟩
      · show _ ↔ Outstanding (ops ++ [.insert t.nextId]) id
        rw [outstanding_concat_insert, HandleTable.get_insert, ← h.held]
        by_cases hself : id = t.nextId
        · simp [hself]
        · simp [hself]
      · rcases List.mem_append.mp (hgiven ▸ hid) with hold | hnew
        · have hbelow := h.below id hold
          omega
        · rw [List.mem_singleton.mp hnew]
          omega
      · show (givenOut (ops ++ [.insert t.nextId])).Nodup
        rw [hgiven]
        refine List.nodup_append.mpr ⟨h.nodup, List.nodup_singleton _, ?_⟩
        rintro id hold _ hnew rfl
        obtain rfl := List.mem_singleton.mp hnew
        exact Nat.lt_irrefl _ (h.below _ hold)
    | remove id =>
      obtain rfl : t' = (t.remove id).2 := hstep
      have hgiven : givenOut (ops ++ [.remove id]) = givenOut ops := by
        unfold givenOut
        rw [List.filterMap_append]
        exact List.append_nil _
      refine ⟨⟨fun id' => ?_, fun id' hid' => h.below id' (hgiven ▸ hid'), ?_⟩,
        (hids.remove id).fewer⟩
      · show _ ↔ Outstanding (ops ++ [.remove id]) id'
        rw [outstanding_concat_remove, HandleTable.get_remove, ← h.held]
        by_cases hself : id' = id
        · simp [hself]
        · simp [hself]
      · show (givenOut (ops ++ [.remove id])).Nodup
        rw [hgiven]
        exact h.nodup

/-! ## The daemon's tables -/

/-- What a request did to the table of blocks. A free takes the id out whatever `hipFree` says. -/
def handlesOp : Request × Response → Option TableOp
  | (.malloc _, .ok body) => some (.insert (u64FromLe body))
  | (.free handle, _) => some (.remove handle)
  | _ => none

def modulesOp : Request × Response → Option TableOp
  | (.loadModule _, .ok body) => some (.insert (u64FromLe body))
  | _ => none

def functionsOp : Request × Response → Option TableOp
  | (.getFunction .., .ok body) => some (.insert (u64FromLe body))
  | _ => none

theorem modulesOp_isInsert {e : Request × Response} {op : TableOp} (h : modulesOp e = some op) :
    ∃ id, op = .insert id := by
  unfold modulesOp at h
  split at h
  · exact ⟨_, (Option.some.inj h).symm⟩
  · cases h

theorem functionsOp_isInsert {e : Request × Response} {op : TableOp}
    (h : functionsOp e = some op) : ∃ id, op = .insert id := by
  unfold functionsOp at h
  split at h
  · exact ⟨_, (Option.some.inj h).symm⟩
  · cases h

/-- A step of each table. -/
structure TableSteps (s s' : DaemonState D) (e : Request × Response) : Prop where
  handles : TableStep s.handles s'.handles (handlesOp e)
  modules : TableStep s.modules s'.modules (modulesOp e)
  functions : TableStep s.functions s'.functions (functionsOp e)

/-- A request that leaves the tables alone. -/
theorem TableSteps.same {s : DaemonState D} {e : Request × Response} (device : D)
    (hhandles : handlesOp e = none) (hmodules : modulesOp e = none)
    (hfunctions : functionsOp e = none) : TableSteps s { s with device } e where
  handles := by rw [hhandles]; rfl
  modules := by rw [hmodules]; rfl
  functions := by rw [hfunctions]; rfl

/-- What a request does to the tables can be read off its response. -/
theorem handleRequest_tableSteps {hip : HipLib D} {s s' : DaemonState D} {req : Request}
    {resp : Response} (h : handleRequest hip s req = .ok (resp, s')) :
    TableSteps s s' (req, resp) := by
  have hid : ∀ (t : HandleTable Ptr) (ptr : Ptr),
      TableStep t (t.insert ptr).2 (some (.insert (u64FromLe (u64ToLe t.nextId)))) :=
    fun t ptr => ⟨u64FromLe_u64ToLe t.nextId, ptr, rfl⟩
  cases req with
  | deviceCount =>
    simp only [handleRequest] at h
    split at h
    · cases h; exact .same _ rfl rfl rfl
    · cases h; exact .same _ rfl rfl rfl
  | setDevice device => cases h; exact .same _ rfl rfl rfl
  | malloc size =>
    simp only [handleRequest] at h
    split at h
    case h_1 ptr device _ => cases h; exact ⟨hid s.handles ptr, rfl, rfl⟩
    case h_2 => cases h; exact .same _ rfl rfl rfl
  | free handle =>
    cases hknown : s.handles.get handle with
    | some ptr =>
      rw [handleRequest_free_known hip hknown] at h
      cases h
      exact ⟨rfl, rfl, rfl⟩
    | none =>
      rw [handleRequest_free_unknown hip hknown] at h
      cases h
      refine ⟨?_, rfl, rfl⟩
      show s.handles = (s.handles.remove handle).2
      rw [HandleTable.remove_unknown hknown]
  | memcpyH2D handle offset data =>
    simp only [handleRequest] at h
    split at h
    · cases h; exact .same _ rfl rfl rfl
    · cases h; exact .same _ rfl rfl rfl
  | memcpyD2H handle offset len =>
    simp only [handleRequest] at h
    split at h
    case h_1 ptr _ =>
      obtain ⟨result, -, hresult⟩ := Io.bind_eq_ok.mp h
      cases hresult
      exact .same _ rfl rfl rfl
    case h_2 => cases h; exact .same _ rfl rfl rfl
  | getDeviceProperties device => cases h; exact .same _ rfl rfl rfl
  | loadModule data =>
    simp only [handleRequest] at h
    split at h
    case h_1 ptr device _ => cases h; exact ⟨rfl, hid s.modules ptr, rfl⟩
    case h_2 => cases h; exact .same _ rfl rfl rfl
  | getFunction module name =>
    simp only [handleRequest] at h
    split at h
    case h_1 =>
      split at h
      case h_1 ptr device _ => cases h; exact ⟨rfl, rfl, hid s.functions ptr⟩
      case h_2 => cases h; exact .same _ rfl rfl rfl
    case h_2 => cases h; exact .same _ rfl rfl rfl
  | launchKernel function grid block sharedMem fixups args =>
    simp only [handleRequest] at h
    split at h
    case h_1 ptr _ =>
      obtain ⟨result, -, hresult⟩ := Io.bind_eq_ok.mp h
      cases result with
      | ok args => cases hresult; exact .same _ rfl rfl rfl
      | error e => cases hresult; exact .same _ rfl rfl rfl
    case h_2 => cases h; exact .same _ rfl rfl rfl

/-- The three tables are what the log made of them, with room for `n` more ids each. -/
structure TablesOf (s : DaemonState D) (log : List (Request × Response)) (n : Nat) : Prop where
  handles : TableOf s.handles (log.filterMap handlesOp) ∧ s.handles.IdsLeft n
  modules : TableOf s.modules (log.filterMap modulesOp) ∧ s.modules.IdsLeft n
  functions : TableOf s.functions (log.filterMap functionsOp) ∧ s.functions.IdsLeft n

theorem TablesOf.served {hip : HipLib D} {s s' : DaemonState D} {log : List (Request × Response)}
    {n : Nat} (h : TablesOf s log (n + 1)) {req : Request} {resp : Response}
    (hserve : handleRequest hip s req = .ok (resp, s')) :
    TablesOf s' (log ++ [(req, resp)]) n := by
  have hsteps := handleRequest_tableSteps hserve
  have hlast : ∀ f : Request × Response → Option TableOp,
      (log ++ [(req, resp)]).filterMap f = log.filterMap f ++ (f (req, resp)).toList := by
    intro f
    rw [List.filterMap_append]
    cases hf : f (req, resp) <;> simp [hf]
  constructor
  case handles => rw [hlast]; exact h.handles.1.step h.handles.2 hsteps.handles
  case modules => rw [hlast]; exact h.modules.1.step h.modules.2 hsteps.modules
  case functions => rw [hlast]; exact h.functions.1.step h.functions.2 hsteps.functions

theorem Replays.tablesOf {hip : HipLib D} {s s' : DaemonState D}
    {before log : List (Request × Response)} {n : Nat} (h : TablesOf s before (n + log.length))
    (hlog : Replays hip s log s') : TablesOf s' (before ++ log) n := by
  induction log generalizing s before with
  | nil =>
    subst hlog
    rw [List.append_nil]
    exact h
  | cons e log ih =>
    obtain ⟨mid, hserve, hrest⟩ := hlog
    have hmid := ih (h.served hserve) hrest
    rwa [List.append_assoc] at hmid

theorem tablesOf_new (device : D) {n : Nat} (hn : n < 2 ^ 64 - 1) :
    TablesOf (.new device) [] n where
  handles := ⟨tableOf_new, HandleTable.idsLeft_new hn⟩
  modules := ⟨tableOf_new, HandleTable.idsLeft_new hn⟩
  functions := ⟨tableOf_new, HandleTable.idsLeft_new hn⟩

/-- **The tables are the log.** At any point of the daemon's life, before `2 ^ 64 - 1` requests were
served: a block's id is known exactly when some client was given it and no client has freed it
since, a module's or a function's exactly when it was ever given out; hanging up changes none of
them. No table gives an id out twice. -/
theorem tables_are_the_log (hip : HipLib D) (device : D) (events : List ServerEvent)
    (hroom : (run (serverStep hip) (Server.new (.new device)) events).log.length < 2 ^ 64 - 1) :
    let s := run (serverStep hip) (Server.new (.new device)) events
    let log := s.log.map Prod.snd
    (∀ id, (s.daemon.handles.get id).isSome ↔ Outstanding (log.filterMap handlesOp) id) ∧
      (∀ id, (s.daemon.modules.get id).isSome ↔ id ∈ givenOut (log.filterMap modulesOp)) ∧
      (∀ id, (s.daemon.functions.get id).isSome ↔ id ∈ givenOut (log.filterMap functionsOp)) ∧
      (givenOut (log.filterMap handlesOp)).Nodup ∧ (givenOut (log.filterMap modulesOp)).Nodup ∧
      (givenOut (log.filterMap functionsOp)).Nodup := by
  intro s log
  have horderly : s.Orderly hip (.new device) := Server.orderly_run hip (.new device) events
  have htables : TablesOf s.daemon log 0 := by
    have hlength : 0 + log.length < 2 ^ 64 - 1 := by
      rw [List.length_map, Nat.zero_add]
      exact hroom
    exact horderly.replays.tablesOf (tablesOf_new device hlength)
  refine ⟨htables.handles.1.held, fun id => ?_, fun id => ?_, htables.handles.1.nodup,
    htables.modules.1.nodup, htables.functions.1.nodup⟩
  · rw [htables.modules.1.held, outstanding_iff_givenOut]
    intro op hop
    obtain ⟨e, -, he⟩ := List.mem_filterMap.mp hop
    exact modulesOp_isInsert he
  · rw [htables.functions.1.held, outstanding_iff_givenOut]
    intro op hop
    obtain ⟨e, -, he⟩ := List.mem_filterMap.mp hop
    exact functionsOp_isInsert he

/-- A client is given a block and hangs up; the next one asks for the number of devices. -/
def leavingClient : List ServerEvent :=
  [.input .connect, .input (.send 0 (Request.malloc 16).writeTo), .input (.hangUp 0),
    .move (.ok ()), .move (.ok ()), .move (.ok ()), .input .connect,
    .input (.send 1 [1, 0, 0, 0, 0]), .move (.ok ()), .move (.ok ())]

theorem tables_are_the_log_leavingClient :
    ((run (serverStep flatHip) (Server.new (.new FlatDevice.new)) leavingClient).daemon.handles.get
      1).isSome :=
  ((tables_are_the_log flatHip FlatDevice.new leavingClient (by decide +kernel)).1 1).mpr
    ⟨[], [], by decide +kernel, List.not_mem_nil⟩

end HipBridge.Daemon

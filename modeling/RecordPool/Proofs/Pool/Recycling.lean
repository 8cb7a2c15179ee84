import RecordPool.Fixtures
import RecordPool.Proofs.Pool.Calls
import RecordPool.Proofs.Pool.Opening

/-!
# Released proxies

The proxies that wait for use again are unbound and the pool's own, and no more than the limit.
None gets lost on the way: every proxy asked for is minted or taken from among them, and of those
given back each waits, was handed out again, or was dropped because the queue was full.
-/

namespace RecordPool.Pool

variable {σ : Type}

/-- The commands that hand out a proxy or take one back. -/
def Command.movesProxies : Command → Bool
  | .mint | .acquire | .release _ => true
  | _ => false

/-- Whether a proxy was asked for in a call. -/
def Call.asksForProxy (call : Call σ) : Bool :=
  match call.command with
  | .mint | .acquire => true
  | _ => false

/-- Whether a proxy was given back in a call. -/
def Call.givesBack (call : Call σ) : Bool :=
  match call.command, call.answer with
  | .release _, .ok .done => true
  | _, _ => false

/-- Whether a proxy was given back in a call, and the same proxies wait as before. -/
def Call.drops (call : Call σ) : Bool :=
  call.givesBack && decide (call.after.spares = call.before.spares)

theorem Call.movesProxies_of_asksForProxy {call : Call σ} (asks : call.asksForProxy = true) :
    call.command.movesProxies = true := by
  rcases call with ⟨before, command, answer, after⟩
  cases command <;> first | rfl | cases asks

theorem Call.movesProxies_of_givesBack {call : Call σ} (gives : call.givesBack = true) :
    call.command.movesProxies = true := by
  rcases call with ⟨before, command, answer, after⟩
  cases command <;> first | rfl | cases gives

/-- Two states of one pool between which no proxy was handed out or taken back. -/
structure SameProxies (before after : Pool σ) : Prop where
  id_eq : after.id = before.id
  spares_eq : after.spares = before.spares
  spareLimit_eq : after.spareLimit = before.spareLimit
  proxiesMinted_eq : after.proxiesMinted = before.proxiesMinted
  proxiesRecycled_eq : after.proxiesRecycled = before.proxiesRecycled

variable [Store σ]

theorem lasting_sameProxies (topic? : Option Topic) :
    Lasting (SameProxies : Pool σ → Pool σ → Prop) topic? where
  refl pool := ⟨rfl, rfl, rfl, rfl, rfl⟩
  trans first second third earlier later := {
    id_eq := later.id_eq.trans earlier.id_eq
    spares_eq := later.spares_eq.trans earlier.spares_eq
    spareLimit_eq := later.spareLimit_eq.trans earlier.spareLimit_eq
    proxiesMinted_eq := later.proxiesMinted_eq.trans earlier.proxiesMinted_eq
    proxiesRecycled_eq := later.proxiesRecycled_eq.trans earlier.proxiesRecycled_eq }
  withSlab pool slab := ⟨rfl, rfl, rfl, rfl, rfl⟩
  announce topic _ phase index pool := by
    rw [stateLeft_announce]
    exact ⟨rfl, rfl, rfl, rfl, rfl⟩

theorem step_sameProxies (pool : Pool σ) {command : Command}
    (other : command.movesProxies = false) : SameProxies pool (pool.step command).2 := by
  cases confined : command.isConfined with
  | true => exact step_keeps (lasting_sameProxies command.topic?) confined pool
  | false =>
      cases command with
      | subscribe topic listener => cases topic <;> exact ⟨rfl, rfl, rfl, rfl, rfl⟩
      | unsubscribe id =>
          simp only [step_eq, perform, change, stateLeft_ok, unsubscribe]
          split
          · exact ⟨rfl, rfl, rfl, rfl, rfl⟩
          · split <;> exact ⟨rfl, rfl, rfl, rfl, rfl⟩
      | setInitializer initializer => exact ⟨rfl, rfl, rfl, rfl, rfl⟩
      | setValidation validation => exact ⟨rfl, rfl, rfl, rfl, rfl⟩
      | mint => cases other
      | acquire => cases other
      | release proxy => cases other
      | _ => cases confined

section Calls

variable {pool : Pool σ}

/-- With no proxy waiting, one is minted. -/
theorem step_acquire_of_none (none : pool.spares = []) :
    pool.step .acquire = (.ok (.proxy (.unbound pool.id)), pool.mint.2) := by
  simp only [step_eq, perform, change, acquire, none]
  rfl

/-- The proxy that has waited longest is handed out again. -/
theorem step_acquire_of_some {proxy : Proxy} {rest : List Proxy}
    (waits : pool.spares = proxy :: rest) :
    pool.step .acquire = (.ok (.proxy proxy),
      { pool with spares := rest, proxiesRecycled := pool.proxiesRecycled + 1 }) := by
  simp only [step_eq, perform, change, acquire, waits]
  rfl

theorem step_release_of_foreign {proxy : Proxy} (foreign : proxy.owner ≠ pool.id) :
    pool.step (.release proxy) =
      (.ok (.rejected ⟨proxy, .foreignProxy proxy.owner pool.id⟩), pool) := by
  simp only [step_eq, perform, change, release_of_foreign foreign]
  rfl

theorem step_release_of_room {proxy : Proxy} (own : proxy.owner = pool.id)
    (room : pool.spares.length < pool.spareLimit) :
    pool.step (.release proxy) =
      (.ok .done, { pool with spares := pool.spares ++ [.unbound pool.id] }) := by
  have unbound : proxy.unbind = .unbound pool.id := congrArg (Proxy.mk · _) own
  simp only [step_eq, perform, change, release_of_own own, if_pos room, unbound]
  rfl

theorem step_release_of_full {proxy : Proxy} (own : proxy.owner = pool.id)
    (full : ¬ pool.spares.length < pool.spareLimit) :
    pool.step (.release proxy) = (.ok .done, pool) := by
  simp only [step_eq, perform, change, release_of_own own, if_neg full]
  rfl

end Calls

/-- The proxies that wait are unbound, of the pool, and within the limit. -/
structure Stocked (pool : Pool σ) : Prop where
  unbound : ∀ proxy ∈ pool.spares, proxy = .unbound pool.id
  length_le : pool.spares.length ≤ pool.spareLimit

omit [Store σ] in
theorem SameProxies.stocked {before after : Pool σ} (same : SameProxies before after)
    (stocked : before.Stocked) : after.Stocked where
  unbound := by
    rw [same.spares_eq, same.id_eq]
    exact stocked.unbound
  length_le := by
    rw [same.spares_eq, same.spareLimit_eq]
    exact stocked.length_le

/-- What a call makes of the proxies that wait and of the counts of those handed out. -/
structure Balances (call : Call σ) : Prop where
  stocked : call.after.Stocked
  limit_eq : call.after.spareLimit = call.before.spareLimit
  handedOut : call.after.proxiesMinted + call.after.proxiesRecycled =
    call.before.proxiesMinted + call.before.proxiesRecycled + call.asksForProxy.toNat
  takenBack : call.after.proxiesRecycled + call.after.spares.length + call.drops.toNat =
    call.before.proxiesRecycled + call.before.spares.length + call.givesBack.toNat
  drops_iff : call.givesBack = true →
    (call.drops = true ↔ call.before.spares.length = call.before.spareLimit)

variable {pool : Pool σ}

omit [Store σ] in
theorem Balances.of_sameProxies {call : Call σ} (stocked : call.before.Stocked)
    (same : SameProxies call.before call.after) (other : call.command.movesProxies = false) :
    Balances call := by
  have notAsked : call.asksForProxy = false := by
    by_contra asks
    rw [Call.movesProxies_of_asksForProxy (eq_true_of_ne_false asks)] at other
    cases other
  have notGiven : call.givesBack = false := by
    by_contra gives
    rw [Call.movesProxies_of_givesBack (eq_true_of_ne_false gives)] at other
    cases other
  have notDropped : call.drops = false := by rw [Call.drops, notGiven, Bool.false_and]
  constructor
  case stocked => exact same.stocked stocked
  case limit_eq => exact same.spareLimit_eq
  case handedOut => rw [same.proxiesMinted_eq, same.proxiesRecycled_eq, notAsked]; rfl
  case takenBack =>
    rw [same.proxiesRecycled_eq, same.spares_eq, notDropped, notGiven]
  case drops_iff =>
    intro gives
    rw [notGiven] at gives
    cases gives

theorem acquire_balances (stocked : pool.Stocked) : Balances (pool.call .acquire) := by
  cases waits : pool.spares with
  | nil =>
      rw [call_eq (step_acquire_of_none waits)]
      constructor
      case stocked => exact ⟨stocked.unbound, stocked.length_le⟩
      case limit_eq => rfl
      case handedOut => exact Nat.add_right_comm _ _ _
      case takenBack => rfl
      case drops_iff => exact fun gives => by cases gives
  | cons proxy rest =>
      rw [call_eq (step_acquire_of_some waits)]
      have unbound := stocked.unbound
      have length := stocked.length_le
      rw [waits] at unbound length
      constructor
      case stocked =>
        exact ⟨fun other member => unbound other (List.mem_cons_of_mem proxy member),
          Nat.le_of_succ_le length⟩
      case limit_eq => rfl
      case handedOut => rfl
      case takenBack =>
        simp only [Call.drops, Call.givesBack, Bool.false_and, Bool.toNat_false, waits,
          List.length_cons]
        omega
      case drops_iff => exact fun gives => by cases gives

theorem release_balances (stocked : pool.Stocked) (proxy : Proxy) :
    Balances (pool.call (.release proxy)) := by
  by_cases own : proxy.owner = pool.id
  · by_cases room : pool.spares.length < pool.spareLimit
    · rw [call_eq (step_release_of_room own room)]
      have kept : pool.spares ++ [.unbound pool.id] ≠ pool.spares := by simp
      constructor
      case stocked =>
        refine ⟨fun other member => ?_, ?_⟩
        · rcases List.mem_append.mp member with before | added
          · exact stocked.unbound other before
          · exact List.mem_singleton.mp added
        · rw [List.length_append]
          exact room
      case limit_eq => rfl
      case handedOut => rfl
      case takenBack =>
        simp only [Call.drops, Call.givesBack, decide_eq_false kept, Bool.true_and,
          Bool.toNat_false, Bool.toNat_true, List.length_append, List.length_singleton]
        rfl
      case drops_iff =>
        simp only [Call.drops, Call.givesBack, decide_eq_false kept, Bool.true_and]
        intro _
        exact iff_of_false Bool.false_ne_true (Nat.ne_of_lt room)
    · rw [call_eq (step_release_of_full own room)]
      constructor
      case stocked => exact stocked
      case limit_eq => rfl
      case handedOut => rfl
      case takenBack => simp [Call.drops, Call.givesBack]
      case drops_iff =>
        simp only [Call.drops, Call.givesBack, decide_true, Bool.true_and, true_iff]
        intro _
        exact Nat.le_antisymm stocked.length_le (Nat.le_of_not_lt room)
  · rw [call_eq (step_release_of_foreign own)]
    constructor
    case stocked => exact stocked
    case limit_eq => rfl
    case handedOut => rfl
    case takenBack => rfl
    case drops_iff => exact fun gives => by cases gives

/-- Every call keeps the balance. -/
theorem call_balances (stocked : pool.Stocked) (command : Command) :
    Balances (pool.call command) := by
  cases moves : command.movesProxies with
  | false => exact .of_sameProxies stocked (step_sameProxies pool moves) moves
  | true =>
      cases command with
      | mint =>
          constructor
          case stocked => exact ⟨stocked.unbound, stocked.length_le⟩
          case limit_eq => rfl
          case handedOut => exact Nat.add_right_comm _ _ _
          case takenBack => rfl
          case drops_iff => exact fun gives => by cases gives
      | acquire => exact acquire_balances stocked
      | release proxy => exact release_balances stocked proxy
      | _ => cases moves

/-- The account of the proxies of a pool, given the calls made to it. -/
structure AccountsForProxies (limit : Nat) (pool : Pool σ) (calls : List (Call σ)) : Prop where
  stocked : pool.Stocked
  limit_eq : pool.spareLimit = limit
  /-- A proxy asked for is minted, or it waited for use again. -/
  handedOut : pool.proxiesMinted + pool.proxiesRecycled = calls.countP Call.asksForProxy
  /-- A proxy given back was handed out again, or waits, or was dropped. -/
  takenBack : pool.proxiesRecycled + pool.spares.length + calls.countP Call.drops =
    calls.countP Call.givesBack
  /-- A proxy given back is dropped exactly if as many wait as the limit allows. -/
  drops_iff : ∀ call ∈ calls, call.givesBack = true →
    (call.drops = true ↔ call.before.spares.length = limit)

omit [Store σ] in
theorem accountsForProxies_blank (id : PoolId) (layout : Layout) (store : σ) (config : Config) :
    AccountsForProxies config.spareLimit (blank id layout store config) [] where
  stocked := ⟨fun _ member => absurd member List.not_mem_nil, Nat.zero_le _⟩
  limit_eq := rfl
  handedOut := rfl
  takenBack := rfl
  drops_iff _ member := absurd member List.not_mem_nil

theorem AccountsForProxies.step {limit : Nat} {calls : List (Call σ)}
    (account : AccountsForProxies limit pool calls) (command : Command) :
    AccountsForProxies limit (pool.step command).2 (calls ++ [pool.call command]) := by
  have balances := call_balances account.stocked command
  have handedOut := balances.handedOut
  have takenBack := balances.takenBack
  have handedOutBefore := account.handedOut
  have takenBackBefore := account.takenBack
  constructor
  case stocked => exact balances.stocked
  case limit_eq => exact balances.limit_eq.trans account.limit_eq
  case handedOut =>
    rw [countP_concat]
    exact handedOut.trans (congrArg (· + _) handedOutBefore)
  case takenBack =>
    rw [countP_concat, countP_concat]
    change (pool.step command).2.proxiesRecycled + (pool.step command).2.spares.length + _ =
      pool.proxiesRecycled + pool.spares.length + _ at takenBack
    omega
  case drops_iff =>
    intro call member
    rcases List.mem_append.mp member with before | added
    · exact account.drops_iff call before
    · rw [List.mem_singleton.mp added, ← account.limit_eq]
      exact balances.drops_iff

theorem AccountsForProxies.run {limit : Nat} {calls : List (Call σ)}
    (account : AccountsForProxies limit pool calls) (commands : List Command) :
    AccountsForProxies limit (pool.run commands).2 (calls ++ pool.calls commands) :=
  run_keeps (AccountsForProxies limit) (fun _ _ command before _ => before.step command) account
    fun _ _ => trivial

/-- The proxies of a pool are accounted for, and what a pool does when one is asked for or given
back. -/
structure RecyclesProxies (limit : Nat) (pool : Pool σ) (calls : List (Call σ)) : Prop
    extends AccountsForProxies limit pool calls where
  /-- An unbound proxy of the pool is handed out, minted only if none waits. -/
  acquires : (pool.step .acquire).1 = .ok (.proxy (.unbound pool.id)) ∧
    (pool.step .acquire).2.proxiesMinted =
      pool.proxiesMinted + if pool.spares = [] then 1 else 0
  accepts : ∀ proxy, proxy.owner = pool.id → (pool.step (.release proxy)).1 = .ok .done
  /-- A proxy of another pool is handed back as it was, and nothing changes. -/
  refuses : ∀ proxy, proxy.owner ≠ pool.id → pool.step (.release proxy) =
    (.ok (.rejected ⟨proxy, .foreignProxy proxy.owner pool.id⟩), pool)

theorem recyclesProxies {limit : Nat} {calls : List (Call σ)}
    (account : AccountsForProxies limit pool calls) : RecyclesProxies limit pool calls where
  toAccountsForProxies := account
  acquires := by
    cases waits : pool.spares with
    | nil =>
        rw [step_acquire_of_none waits]
        exact ⟨rfl, rfl⟩
    | cons proxy rest =>
        have unbound := account.stocked.unbound proxy (waits ▸ List.mem_cons_self)
        rw [step_acquire_of_some waits, unbound]
        exact ⟨rfl, rfl⟩
  accepts proxy own := by
    by_cases room : pool.spares.length < pool.spareLimit
    · rw [step_release_of_room own room]
    · rw [step_release_of_full own room]
  refuses _ foreign := step_release_of_foreign foreign

/-- At all times, in every pool, the proxies are accounted for. -/
theorem all_account_for_proxies (commands : List Command) :
    OfEveryKind fun _ _ _ opened =>
      RecyclesProxies opened.spareLimit (opened.run commands).2 (opened.calls commands) := by
  apply ofEveryKind
  intro σ _ _ id layout store config _ _
  exact recyclesProxies ((accountsForProxies_blank id layout store config).run commands)

/-- A pool that keeps one released proxy, after it was given two and offered a foreign one. -/
theorem scant_queue_accounts_for_proxies :
    ∃ layout pool, Fixture.int.layout = .ok layout ∧
      ofConfig ⟨0⟩ layout { spareLimit := 1 } = .ok pool ∧
      let commands := [.mint, .acquire, .create (.unbound ⟨0⟩), .release ⟨⟨0⟩, 0⟩,
        .release ⟨⟨1⟩, 5⟩, .release (.unbound ⟨0⟩), .acquire]
      RecyclesProxies pool.spareLimit (pool.run commands).2 (pool.calls commands) := by
  have opened : ∃ layout pool, Fixture.int.layout = .ok layout ∧
      ofConfig ⟨0⟩ layout { spareLimit := 1 } = .ok pool := ⟨_, _, rfl, rfl⟩
  rcases opened with ⟨layout, pool, built, opened⟩
  exact ⟨layout, pool, built, opened, (all_account_for_proxies _).1 _ _ _ _ _ opened⟩

end RecordPool.Pool

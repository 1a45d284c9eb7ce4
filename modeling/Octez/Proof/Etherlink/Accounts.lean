import Octez.Model.Etherlink.Apply

namespace Octez.Etherlink
open Octez.Lib Octez.Lib.Unsigned Octez.Lib.Durable EthereumAccountStorage

variable {host host' : Host Entry} {account : EthereumAccount} {address other : H160}
  {amount : U256} {world world' : World}

@[simp] theorem readU256_write (host : Host Entry) (path : Path Step) (amount default : U256) :
    readU256 (host.write path (.wei amount)) path default = .ok amount := by
  rw [readU256, find_write_self]

variable {path : Path Step}

theorem readU256_sameBelow (same : SameBelow path host host') (default : U256) :
    readU256 host' path default = readU256 host path default := by
  rw [readU256, readU256, same.find_eq, same.hasTree_eq]

namespace EthereumAccount

@[simp] theorem balance_setBalance (account : EthereumAccount) (host : Host Entry) (balance : U256) :
    account.balance (account.setBalance host balance) = .ok balance :=
  readU256_write host account.balancePath balance 0

theorem balanceAdd_eq_ok : account.balanceAdd host amount = .ok host' ↔
    ∃ before after, account.balance host = .ok before ∧ after.val = before.val + amount.val ∧
      account.setBalance host after = host' := by
  unfold balanceAdd
  rw [bind_eq_ok]
  refine exists_congr fun before => ?_
  rw [exists_and_left]
  simp only [← checkedAdd_eq_some]
  cases checkedAdd before amount with
  | none | some after => simp

theorem balanceRemove_eq_ok {paid : Bool} :
    account.balanceRemove host amount = .ok (paid, host') ↔
      ∃ before, account.balance host = .ok before ∧
        ((∃ after, paid = true ∧ after.val + amount.val = before.val ∧
            account.setBalance host after = host') ∨ (paid = false ∧ before < amount ∧ host = host')) := by
  unfold balanceRemove
  rw [bind_eq_ok]
  refine exists_congr fun before => and_congr_right fun _ => ?_
  simp only [← checkedSub_eq_some]
  cases difference : checkedSub before amount with
  | none =>
    have short : before < amount := by
      unfold checkedSub at difference
      split at difference
      · cases difference
      · exact lt_of_not_ge ‹_›
    simp [short, eq_comm]
  | some after =>
    have enough : ¬before < amount := by
      have sum := checkedSub_eq_some.1 difference
      rw [not_lt, Fin.le_def]
      omega
    simp [enough, eq_comm]

end EthereumAccount

theorem EthereumAccountStorage.get_eq (accounts : EthereumAccountStorage) (host : Host Entry)
    (address : H160) : accounts.get host address =
      if host.hasSubtree (accounts.getOrCreate address).path then some (accounts.getOrCreate address)
      else none := rfl

namespace World

def setBalance (world : World) (address : H160) (balance : U256) : World :=
  { world with host := (world.account address).setBalance world.host balance }

@[simp] theorem balance_setBalance (world : World) (address : H160) (balance : U256) :
    (world.setBalance address balance).balance address = .ok balance :=
  EthereumAccount.balance_setBalance _ _ _

theorem account_path_apart {slot slot' : Path Step} (apart : address ≠ other ∨ Apart slot slot') :
    Apart ((world.account address).path ++ slot) ((world.account other).path ++ slot') := by
  by_cases same : address = other
  · subst same
    simpa [Apart] using apart
  · constructor <;>
      · intro below
        simp only [account, getOrCreate, accountPath, List.append_assoc,
          List.prefix_append_right_inj, List.singleton_append, List.cons_prefix_cons, Step.hex.injEq] at below
        exact same (below.1 ▸ rfl)

theorem balance_setBalance_of_ne (world : World) (balance : U256) (different : address ≠ other) :
    (world.setBalance address balance).balance other = world.balance other :=
  readU256_sameBelow (.write _ _ (account_path_apart (.inl different))) 0

theorem balanceAdd_eq_ok : world.balanceAdd address amount = .ok world' ↔
    ∃ before after, world.balance address = .ok before ∧ after.val = before.val + amount.val ∧
      world.setBalance address after = world' := by
  unfold balanceAdd
  simp only [bind_eq_ok, EthereumAccount.balanceAdd_eq_ok, pure_eq_ok, Except.ok.injEq]
  constructor
  · rintro ⟨_, ⟨before, after, held, sum, rfl⟩, rfl⟩
    exact ⟨before, after, held, sum, rfl⟩
  · rintro ⟨before, after, held, sum, rfl⟩
    exact ⟨_, ⟨before, after, held, sum, rfl⟩, rfl⟩

theorem balanceRemove_eq_ok {paid : Bool} :
    world.balanceRemove address amount = .ok (paid, world') ↔
      ∃ before, world.balance address = .ok before ∧
        ((∃ after, paid = true ∧ after.val + amount.val = before.val ∧
            world.setBalance address after = world') ∨
          (paid = false ∧ before < amount ∧ world = world')) := by
  unfold balanceRemove
  simp only [bind_eq_ok, Prod.exists, EthereumAccount.balanceRemove_eq_ok, pure_eq_ok,
    Except.ok.injEq, Prod.mk.injEq]
  constructor
  · rintro ⟨_, _, ⟨before, held, ⟨after, rfl, sum, rfl⟩ | ⟨rfl, short, rfl⟩⟩, rfl, rfl⟩
    · exact ⟨before, held, .inl ⟨after, rfl, sum, rfl⟩⟩
    · exact ⟨before, held, .inr ⟨rfl, short, rfl⟩⟩
  · rintro ⟨before, held, ⟨after, rfl, sum, rfl⟩ | ⟨rfl, short, rfl⟩⟩
    · exact ⟨true, _, ⟨before, held, .inl ⟨after, rfl, sum, rfl⟩⟩, rfl, rfl⟩
    · exact ⟨false, _, ⟨before, held, .inr ⟨rfl, short, rfl⟩⟩, rfl, rfl⟩

theorem sameBelow_write (world : World) {slot : Path Step} {value : Entry}
    (apart : Apart world.accounts.top path) :
    SameBelow path world.host (world.host.write ((world.account address).path ++ slot) value) := by
  apply SameBelow.write
  rw [account, getOrCreate, List.append_assoc]
  exact apart.of_below _

end World

theorem top_apart_burnedFees (accounts : EthereumAccountStorage) : Apart accounts.top burnedFeesPath := by
  unfold top layer
  split <;> simp [Apart, burnedFeesPath, evmAccountsPath]

theorem top_apart_sequencerPool (accounts : EthereumAccountStorage) :
    Apart accounts.top sequencerPoolPath := by
  unfold top layer
  split <;> simp [Apart, sequencerPoolPath, evmAccountsPath]

theorem readSequencerPoolAddress_sameBelow {host host' : Host Entry}
    (same : SameBelow sequencerPoolPath host host') :
    readSequencerPoolAddress host' = readSequencerPoolAddress host := by
  rw [readSequencerPoolAddress, readSequencerPoolAddress, same.find_eq]

theorem readBurnedFees_congr {host host' : Host Entry}
    (same : host'.find burnedFeesPath = host.find burnedFeesPath) :
    readBurnedFees host' = readBurnedFees host := by
  rw [readBurnedFees, readBurnedFees, same]

theorem readBurnedFees_sameBelow {host host' : Host Entry}
    (same : SameBelow burnedFeesPath host host') : readBurnedFees host' = readBurnedFees host :=
  readBurnedFees_congr same.find_eq

namespace World

@[simp] theorem readSequencerPoolAddress_setBalance (world : World) (address : H160)
    (balance : U256) : readSequencerPoolAddress (world.setBalance address balance).host =
      readSequencerPoolAddress world.host :=
  readSequencerPoolAddress_sameBelow
    (sameBelow_write world (top_apart_sequencerPool world.accounts))

@[simp] theorem readBurnedFees_setBalance (world : World) (address : H160) (balance : U256) :
    readBurnedFees (world.setBalance address balance).host = readBurnedFees world.host :=
  readBurnedFees_sameBelow (sameBelow_write world (top_apart_burnedFees world.accounts))

def setNonce (world : World) (address : H160) (nonce : UInt64) : World :=
  { world with host := world.host.write (world.account address).noncePath (.u64 nonce) }

@[simp] theorem balance_decrementNonce (world : World) (address other : H160) :
    (world.decrementNonce address).balance other = world.balance other :=
  readU256_sameBelow (.write _ _ (account_path_apart (.inr (by simp [Apart])))) 0

end World

def World.burn (world : World) (burned : U256) : World :=
  { world with host := updateBurnedFees world.host burned }

@[simp] theorem World.balance_burn (world : World) (burned : U256) (address : H160) :
    (world.burn burned).balance address = world.balance address := by
  apply readU256_sameBelow
  apply SameBelow.write
  rw [EthereumAccount.balancePath, World.account, getOrCreate, List.append_assoc]
  exact ((top_apart_burnedFees world.accounts).of_below _).symm

@[simp] theorem World.readBurnedFees_burn (world : World) (burned : U256) :
    readBurnedFees (world.burn burned).host = saturatingAdd (readBurnedFees world.host) burned := by
  have written : (world.burn burned).host.find burnedFeesPath =
      some (.wei (saturatingAdd (readBurnedFees world.host) burned)) := find_write_self _ _ _
  rw [readBurnedFees, written]

theorem World.balance_of_get_none {address : H160}
    (absent : world.accounts.get world.host address = none) : world.balance address = .ok 0 := by
  rw [get_eq, ite_eq_right_iff] at absent
  have empty : world.host.hasSubtree (world.account address).path = false := by
    rw [← Bool.not_eq_true]
    intro present
    cases absent present
  have nothing : ∀ rest, world.host.find ((world.account address).balancePath ++ rest) = none := by
    intro rest
    by_contra present
    obtain ⟨value, found⟩ := Option.ne_none_iff_exists'.1 present
    rw [EthereumAccount.balancePath, List.append_assoc] at found
    rw [hasSubtree_iff.2 ⟨_, _, value, found⟩] at empty
    cases empty
  have value := nothing []
  rw [List.append_nil] at value
  rw [World.balance, EthereumAccount.balance, readU256, value, hasTree_eq_false.2 nothing]
  rfl

end Octez.Etherlink

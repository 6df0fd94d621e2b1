import Mathlib.Algebra.Group.Int.Defs
import Windrunner.Lib.Run

/-!
# The shop

A purchase is carried out in four places. The worker of the shop charges the account, with one SQL
statement after the other. It leaves a task to the world, that stores the item or has the purchase
refunded. The statements of a refund are delayed, and executed at some time on another connection.
And in between the account gets credits from elsewhere, `coins = coins + n`.

* `ShopState.work`: the next statement of `ProcessRequestsWorker`.
* `ShopState.sendItem`: `ShopSendItemTask`.
* `ShopState.executeDelayed`, `ShopState.addCoins`: the statements of the others.

Every account has its coins here, the requests of all of them go through the one worker.
-/

namespace Windrunner

structure ShopRequest where
  accountId : UInt32
  guidLow : UInt32
  /-- `0` for a request of the balance. -/
  itemId : UInt32
  deriving DecidableEq, Repr

/-- What `ShopSendItemTask` knows of a purchase. -/
structure ShopPurchase where
  accountId : UInt32
  guidLow : UInt32
  itemId : UInt32
  shopId : UInt32
  price : UInt32
  deriving DecidableEq, Repr

/-- A row of `shop_logs`. -/
structure ShopLog where
  id : UInt32
  guid : UInt32
  account : UInt32
  item : UInt32
  price : UInt32
  refunded : Bool
  deriving DecidableEq, Repr

def ShopPurchase.row (p : ShopPurchase) (refunded : Bool) : ShopLog :=
  { id := p.shopId, guid := p.guidLow, account := p.accountId, item := p.itemId, price := p.price,
    refunded }

/-- Where the worker is: before which statement. -/
inductive ShopWorker where
  | idle
  /-- `GetBalance`, for a request of the balance -/
  | balance (accountId : UInt32)
  /-- `BuyItem`, before `GetBalance` -/
  | query (r : ShopRequest) (price : UInt32)
  /-- before the `UPDATE` of `shop_coins` -/
  | update (p : ShopPurchase) (newBalance : Int)
  /-- before the `INSERT` into `shop_logs` -/
  | insert (p : ShopPurchase) (newBalance : Int)
  /-- before the second `GetBalance` -/
  | check (p : ShopPurchase) (newBalance : Int)
  deriving DecidableEq, Repr

/-- A statement that has been handed over to the delay threads of the database. -/
inductive ShopStatement where
  | insertCoins (accountId : UInt32)
  | refundCoins (p : ShopPurchase)
  | markRefunded (shopId : UInt32)
  deriving DecidableEq, Repr

inductive ShopMessage where
  | balance (balance : Int)
  | buyResult (message : String)
  deriving DecidableEq, Repr

structure ShopState where
  /-- `shop_coins` -/
  coins : UInt32 → Option Int32 := fun _ => none
  logs : List ShopLog := []
  pendingRequests : List ShopRequest := []
  /-- The requests that the worker has taken. -/
  requests : List ShopRequest := []
  worker : ShopWorker := .idle
  maxShopEntry : UInt32 := 0
  /-- `m_shopLogsLookup`: whether the purchase is refunded -/
  shopLogsLookup : UInt32 → Option Bool := fun _ => none
  tasks : List ShopPurchase := []
  delayed : List ShopStatement := []
  messages : List (UInt32 × ShopMessage) := []
  /-- An assertion has failed. -/
  aborted : Bool := false
  /-- what has been credited besides the refunds -/
  credits : UInt32 → Int := fun _ => 0
  /-- the purchases that have been charged -/
  charged : List ShopPurchase := []
  /-- the purchases whose item has been stored -/
  delivered : List ShopPurchase := []
  /-- the purchases whose price has been given back -/
  repaid : List ShopPurchase := []

/-- `INT_MAX` -/
abbrev shopIntMax : Int := 2147483647

/-- The number fits into the column `coins`; a statement that does not fit fails. -/
def FitsCoins (c : Int) : Prop := -(2 ^ 31) ≤ c ∧ c < 2 ^ 31

instance (c : Int) : Decidable (FitsCoins c) := inferInstanceAs (Decidable (_ ∧ _))

namespace ShopState

variable (st : ShopState)

variable (accountId : UInt32)

def setCoins (c : Option Int32) : ShopState :=
  { st with coins := fun a => if a = accountId then c else st.coins a }

/-- `coins = coins + n` goes through. -/
def CanAddCoins (n : Int) : Prop :=
  match st.coins accountId with
  | some c => FitsCoins (c.toInt + n)
  | none => False

instance (n : Int) : Decidable (st.CanAddCoins accountId n) := by
  unfold CanAddCoins
  split <;> infer_instance

/-- `UPDATE shop_coins SET coins = coins + n` -/
def addCoins (n : Int) : ShopState :=
  match st.coins accountId with
  | some c =>
    if FitsCoins (c.toInt + n) then st.setCoins accountId (some (Int32.ofInt (c.toInt + n))) else st
  | none => st

def send (m : ShopMessage) : ShopState :=
  { st with messages := st.messages ++ [(accountId, m)] }

/-! ## Requests -/

def requestBalance : ShopState :=
  if st.pendingRequests.any fun r => r.accountId = accountId ∧ r.itemId = 0 then st
  else { st with pendingRequests := st.pendingRequests ++ [⟨accountId, 0, 0⟩] }

/-- `forbidden`: the player may not buy the egg. -/
def requestPurchase (accountId guidLow itemId : UInt32) (forbidden : Bool) : ShopState :=
  if itemId = 92010 ∧ forbidden then st
  else if st.pendingRequests.any fun r =>
      r.accountId = accountId ∧ r.guidLow = guidLow ∧ r.itemId = itemId then st
  else { st with pendingRequests := st.pendingRequests ++ [⟨accountId, guidLow, itemId⟩] }

/-! ## The worker -/

/-- `GetBalance`; `ok`: the query is answered. -/
def getBalance (ok : Bool) (accountId : UInt32) : ShopState × Int :=
  match if ok then st.coins accountId else none with
  | some c => (st, c.toInt)
  | none => ({ st with delayed := st.delayed ++ [.insertCoins accountId] }, 0)

def fail (message : String) : ShopState :=
  { st.send accountId (.buyResult message) with worker := .idle }

/-- The worker begins with a request, or takes those that are pending. -/
def nextRequest (price : UInt32 → Option UInt32) : ShopState :=
  match st.requests with
  | [] => { st with requests := st.pendingRequests, pendingRequests := [] }
  | r :: rest =>
    let st := { st with requests := rest }
    if r.itemId = 0 then { st with worker := .balance r.accountId }
    else
      match price r.itemId with
      | none => st.fail r.accountId "itemnotinshop"
      | some price => { st with worker := .query r price }

/-- `BuyItem` up to the first statement that writes. -/
def buyItem (ok : Bool) (r : ShopRequest) (price : UInt32) : ShopState :=
  let (st, coins) := st.getBalance ok r.accountId
  if 0 < coins then
    let newBalance := coins - price.toNat
    if 0 ≤ newBalance ∧ newBalance < shopIntMax then
      let shopId := st.maxShopEntry + 1
      { st with
        maxShopEntry := shopId
        worker := .update ⟨r.accountId, r.guidLow, r.itemId, shopId, price⟩ newBalance }
    else st.fail r.accountId "notenoughtokens"
  else st.fail r.accountId "notenoughtokens"

/-- `UPDATE shop_coins SET coins = newBalance` -/
def charge (ok : Bool) (p : ShopPurchase) (newBalance : Int) : ShopState :=
  if ok then
    { st.setCoins p.accountId ((st.coins p.accountId).map fun _ => Int32.ofInt newBalance) with
      worker := .insert p newBalance
      charged := st.charged ++ [p] }
  else st.fail p.accountId "dberrorcantprocess"

/-- `INSERT INTO shop_logs`; `id` is the primary key. -/
def insertLog (ok : Bool) (p : ShopPurchase) (newBalance : Int) : ShopState :=
  if ok ∧ ∀ row ∈ st.logs, row.id ≠ p.shopId then
    { st with logs := st.logs ++ [p.row false], worker := .check p newBalance }
  else st.fail p.accountId "dberrorcantprocess"

/-- The rest of `BuyItem`. -/
def finish (ok : Bool) (p : ShopPurchase) (newBalance : Int) : ShopState :=
  let (st, balance) := st.getBalance ok p.accountId
  if balance ≠ newBalance then st.fail p.accountId "dberrorcantprocess"
  else
    { st with
      shopLogsLookup := fun id => if id = p.shopId then some false else st.shopLogsLookup id
      tasks := st.tasks ++ [p]
      worker := .idle }

/-- The worker goes on; `ok`: its next statement does not fail. -/
def work (price : UInt32 → Option UInt32) (ok : Bool) : ShopState :=
  match st.worker with
  | .idle => st.nextRequest price
  | .balance accountId =>
    let (st, balance) := st.getBalance ok accountId
    { st.send accountId (.balance balance) with worker := .idle }
  | .query r price => st.buyItem ok r price
  | .update p newBalance => st.charge ok p newBalance
  | .insert p newBalance => st.insertLog ok p newBalance
  | .check p newBalance => st.finish ok p newBalance

/-! ## The task of the world, and the delayed statements -/

/-- The player of the session, and what `CanStoreNewItem` says of one item. -/
structure Buyer where
  guidLow : UInt32
  inWorld : Bool := true
  canStore : Bool := true
  noSpaceForCount : Nat := 0
  destEmpty : Bool := false
  deriving DecidableEq, Repr

def refundPurchase (p : ShopPurchase) : ShopState :=
  match st.shopLogsLookup p.shopId with
  | some false =>
    { st with
      shopLogsLookup := fun id => if id = p.shopId then some true else st.shopLogsLookup id
      delayed := st.delayed ++ [.refundCoins p, .markRefunded p.shopId] }
  | _ => { st with aborted := true }

/-- `ShopSendItemTask`; there may be no session, and no player in it. -/
def sendItem (p : ShopPurchase) (session : Option (Option Buyer)) : ShopState :=
  match session with
  | none => st.refundPurchase p
  | some none => st.refundPurchase p
  | some (some player) =>
    if !player.inWorld ∨ player.guidLow ≠ p.guidLow then st.refundPurchase p
    else
      let count : Int := if player.canStore then 1 else 1 - player.noSpaceForCount
      if count = 0 ∨ player.destEmpty then
        (st.refundPurchase p).send p.accountId (.buyResult "bagsfulloralreadyhaveitem")
      else
        { st.send p.accountId (.buyResult "ok") with delivered := st.delivered ++ [p] }

/-- Any of the tasks is run. -/
def runTask (i : Nat) (session : Option (Option Buyer)) : ShopState :=
  match st.tasks[i]? with
  | some p => { st with tasks := st.tasks.eraseIdx i }.sendItem p session
  | none => st

def executeStatement : ShopStatement → ShopState
  | .insertCoins accountId =>
    match st.coins accountId with
    | some _ => st
    | none => st.setCoins accountId (some 0)
  | .refundCoins p =>
    { st.addCoins p.accountId p.price.toNat with repaid := st.repaid ++ [p] }
  | .markRefunded shopId =>
    { st with logs := st.logs.map fun row =>
        if row.id = shopId then { row with refunded := true } else row }

/-- Any of the delayed statements is executed. -/
def executeDelayed (i : Nat) : ShopState :=
  match st.delayed[i]? with
  | some s => { st with delayed := st.delayed.eraseIdx i }.executeStatement s
  | none => st

/-- `coins = coins + n`, from elsewhere -/
def credit (n : Int) : ShopState :=
  { st.addCoins accountId n with
    credits := fun a => if a = accountId then st.credits a + n else st.credits a }

inductive Input where
  | requestBalance (accountId : UInt32)
  | requestPurchase (accountId guidLow itemId : UInt32) (forbidden : Bool)
  | work (ok : Bool)
  | task (i : Nat) (session : Option (Option Buyer))
  | statement (i : Nat)
  | credit (accountId : UInt32) (n : Int)
  deriving DecidableEq, Repr

/-- Nothing happens any more when the server has aborted. -/
def step (price : UInt32 → Option UInt32) (st : ShopState) (input : Input) : ShopState :=
  if st.aborted then st
  else
    match input with
    | .requestBalance accountId => st.requestBalance accountId
    | .requestPurchase accountId guidLow itemId forbidden =>
      st.requestPurchase accountId guidLow itemId forbidden
    | .work ok => st.work price ok
    | .task i session => st.runTask i session
    | .statement i => st.executeDelayed i
    | .credit accountId n => st.credit accountId n

end ShopState

end Windrunner

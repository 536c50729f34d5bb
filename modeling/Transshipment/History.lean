import Transshipment.Session

/-! Networks and problems come about by their operations only. A history keeps what
the callers said: the links and lanes that were accepted, in order, and the supplies that
were added. Refused requests leave no trace, and a fault ends the history. Where requests
are told one by one, be they refused or not, a ledger notes what was accepted. -/
namespace Transshipment

/-! ## Operations -/

/-- The network came about by these accepted links, and by any pushes,
shipments and routed orders in between. -/
inductive Network.Made (w : Width) : Network → List Offer → Prop
  | ofNodes (nodes : Nat) : Made w (.ofNodes nodes) []
  | insertNode {net : Network} {offers : List Offer} :
    Made w net offers → Made w net.insertNode.2 offers
  | insertLink {net next : Network} {offers : List Offer} {offer : Offer} {id : Nat} :
    Made w net offers → w.Fits offer.capacity → w.Fits offer.cost →
      net.insertLink w offer.tail offer.head offer.capacity offer.cost = .ok (.ok (id, next)) →
      Made w next (offers ++ [offer])
  | push {net next : Network} {offers : List Offer} {id : Nat} {amount : Int} :
    Made w net offers → net.push w id amount = .ok next → Made w next offers
  | ship {net next : Network} {offers : List Offer} {path : List Nat} {remaining : Int}
      {shipment : Shipment} :
    Made w net offers → net.ship w path remaining = .ok (shipment, next) → Made w next offers
  | route {net : Network} {offers : List Offer} {router : Router} {order : Order} {run : Run} :
    Made w net offers → (router.route w net order).result = .ok run → Made w run.net offers

/-- The problem came about by these supplies and these accepted lanes, and by
any settlements in between. -/
inductive Problem.Made (w : Width) : Problem → List (Nat × Int) → List LaneTerms → Prop
  | ofSites (sites : Nat) : Made w (.ofSites sites) [] []
  | insertSite {problem : Problem} {supplies : List (Nat × Int)} {lanes : List LaneTerms} :
    Made w problem supplies lanes → Made w problem.insertSite.2 supplies lanes
  | insertSites {problem : Problem} {supplies : List (Nat × Int)} {lanes : List LaneTerms}
      (count : Nat) :
    Made w problem supplies lanes → Made w (problem.insertSites count).2 supplies lanes
  | provide {problem next : Problem} {supplies : List (Nat × Int)} {lanes : List LaneTerms}
      {node : Nat} {amount : Int} :
    Made w problem supplies lanes → w.Fits amount →
      problem.provide w node amount = .ok (.ok next) →
      Made w next (supplies ++ [(node, amount)]) lanes
  | consume {problem next : Problem} {supplies : List (Nat × Int)} {lanes : List LaneTerms}
      {node : Nat} {amount : Int} :
    Made w problem supplies lanes → w.Fits amount →
      problem.consume w node amount = .ok (.ok next) →
      Made w next (supplies ++ [(node, -amount)]) lanes
  | insertLane {problem next : Problem} {supplies : List (Nat × Int)} {lanes : List LaneTerms}
      {terms : LaneTerms} {lane : Nat} :
    Made w problem supplies lanes →
      w.Fits terms.lower → w.Fits terms.upper → w.Fits terms.cost →
      problem.insertLane w terms.tail terms.head terms.lower terms.upper terms.cost =
        .ok (.ok (lane, next)) →
      Made w next supplies (lanes ++ [terms])
  | settle {problem : Problem} {supplies : List (Nat × Int)} {lanes : List LaneTerms}
      {router : Router} {settlement : Settlement} :
    Made w problem supplies lanes →
      (router.settle w problem).result = .ok settlement →
      Made w settlement.problem supplies lanes

/-! ## Requests -/

namespace Problem

/-- The number of sites, the supplies and lanes that were accepted, in order, and whether a
settlement was answered with a status. -/
structure Ledger where
  sites : Nat
  supplies : List (Nat × Int) := []
  lanes : List LaneTerms := []
  settled : Bool := false
  deriving DecidableEq

namespace Ledger

/-- Notes a supply, unless it was refused. -/
def noteSupply (ledger : Ledger) (node : Nat) (amount : Int) (answer : Except Refusal Unit) :
    Ledger :=
  if answer.isOk then { ledger with supplies := ledger.supplies ++ [(node, amount)] } else ledger

/-- Notes a lane, unless it was refused. -/
def noteLane (ledger : Ledger) (terms : LaneTerms) (answer : Except Refusal Nat) : Ledger :=
  if answer.isOk then { ledger with lanes := ledger.lanes ++ [terms] } else ledger

/-- Notes that flows were written, unless the settlement was refused. -/
def noteStatus (ledger : Ledger) (answer : Except Refusal Status) : Ledger :=
  if answer.isOk then { ledger with settled := true } else ledger

end Ledger

/-- The problem came about by requests, with these notes in the ledger. A demand is noted as a
negative supply. -/
inductive Served (w : Width) : Problem → Ledger → Prop
  | ofSites (sites : Nat) : Served w (.ofSites sites) { sites }
  | ofOffers {sites : Nat} {offers : List Offer} {problem : Problem} :
    (∀ offer ∈ offers, w.Fits offer.capacity ∧ w.Fits offer.cost) →
      (Problem.ofOffers w sites offers).result = .ok (.ok problem) →
      Served w problem { sites, lanes := offers.map Offer.terms }
  | insertSite {problem : Problem} {ledger : Ledger} :
    Served w problem ledger →
      Served w problem.insertSite.2 { ledger with sites := ledger.sites + 1 }
  | insertSites {problem : Problem} {ledger : Ledger} (count : Nat) :
    Served w problem ledger →
      Served w (problem.insertSites count).2 { ledger with sites := ledger.sites + count }
  | addSupply {problem next : Problem} {ledger : Ledger} {node : Nat} {amount : Int}
      {answer : Except Refusal Unit} :
    Served w problem ledger → w.Fits amount →
      (Problem.addSupply w node amount problem).result = .ok (next, answer) →
      Served w next (ledger.noteSupply node amount answer)
  | addDemand {problem next : Problem} {ledger : Ledger} {node : Nat} {amount : Int}
      {answer : Except Refusal Unit} :
    Served w problem ledger → w.Fits amount →
      (Problem.addDemand w node amount problem).result = .ok (next, answer) →
      Served w next (ledger.noteSupply node (-amount) answer)
  | addLane {problem next : Problem} {ledger : Ledger} {terms : LaneTerms}
      {answer : Except Refusal Nat} :
    Served w problem ledger → w.Fits terms.lower → w.Fits terms.upper → w.Fits terms.cost →
      (Problem.addLane w terms problem).result = .ok (next, answer) →
      Served w next (ledger.noteLane terms answer)
  | settle {problem : Problem} {ledger : Ledger} {router : Router} {settlement : Settlement} :
    Served w problem ledger → (router.settle w problem).result = .ok settlement →
      Served w settlement.problem (ledger.noteStatus settlement.answer)

end Problem

end Transshipment

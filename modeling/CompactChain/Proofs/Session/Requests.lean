import CompactChain.Proofs.Cache.Barred
import CompactChain.Proofs.Session.Attached
import CompactChain.Proofs.Store.Ledger

set_option autoImplicit false

namespace CompactChain

open Cache (Owned handlesAt)
open Store (Error HeldChain Medium Outcome Question Reply Script Stop Warning)
open CompactChain.Tree (Framed OnTheWay)

inductive Request where
  | opening (startHeight : Nat) (syncFrom capacity : Option Nat) (medium : Medium)
  | add (height : Nat) (block : CompactBlock) (medium : Medium)
  | addRaw (data : Bytes) (txids : List Bytes) (treeSize : UInt32) (medium : Medium)
  | reorg (height : Nat) (medium : Medium)
  | ask (question : Question)
  | flush
  | close

inductive Answer where
  | noCache
  | done (answer : Except Error Unit)
  | height (answer : Except Error Nat)
  | reply (reply : Reply)
  deriving DecidableEq

-- With what would end an opening before it is answered, if anything does.
structure Response where
  answer : Answer
  warnings : List Warning
  stop : Option Stop
  deriving DecidableEq

def settingsOf (path : String) (network : Network) : Settings where
  network := network
  startHeight := 0
  syncFrom := none
  capacity := none
  path := path

namespace Session

def perform {α : Type} (session : Session) (medium : Medium) (told : Except Error α → Answer)
    (operation : HeldChain → Script (Outcome α)) : Session × Response :=
  match session.run medium operation with
  | none => (session, ⟨.noCache, [], none⟩)
  | some (after, answer, warnings) => (after, ⟨told answer, warnings, none⟩)

def respond (path : String) (network : Network) (session : Session) : Request → Session × Response
  | .opening startHeight syncFrom capacity medium =>
    let settings : Settings := ⟨network, startHeight, syncFrom, capacity, path⟩
    let opened := Cache.openIn medium session.tree settings
    (⟨opened.tree, opened.answer.toOption⟩,
      ⟨.done (opened.answer.map fun _ => ()), opened.warnings, Cache.stop? session.tree settings⟩)
  | .add height block medium =>
    session.perform medium .done fun chain => chain.add height block
  | .addRaw data txids treeSize medium =>
    session.perform medium .height fun chain => chain.addRaw data txids treeSize
  | .reorg height medium => session.perform medium .done fun chain => chain.reorg height
  | .ask question =>
    (session, ⟨session.cache.elim .noCache fun cache => .reply (cache.chain.reply question), [], none⟩)
  | .flush => (session, ⟨session.cache.elim .noCache fun _ => .done (.ok ()), [], none⟩)
  | .close => (session.close, ⟨session.cache.elim .noCache fun _ => .done (.ok ()), [], none⟩)

def responses (path : String) (network : Network) (session : Session) :
    List Request → Session × List Response
  | [] => (session, [])
  | request :: later =>
    let (after, response) := session.respond path network request
    let (last, rest) := after.responses path network later
    (last, response :: rest)

end Session

structure Shared where
  tree : Tree
  caches : Network → Option Cache

namespace Shared

def start (tree : Tree) : Shared :=
  ⟨tree, fun _ => none⟩

def session (shared : Shared) (network : Network) : Session :=
  ⟨shared.tree, shared.caches network⟩

def respond (path : String) (shared : Shared) (network : Network) (request : Request) :
    Shared × Response :=
  let (after, response) := (shared.session network).respond path network request
  (⟨after.tree, fun other => if other = network then after.cache else shared.caches other⟩, response)

def responses (path : String) (shared : Shared) :
    List (Network × Request) → Shared × List (Network × Response)
  | [] => (shared, [])
  | (network, request) :: later =>
    let (after, response) := shared.respond path network request
    let (last, rest) := after.responses path later
    (last, (network, response) :: rest)

end Shared

def forNetwork {α : Type} (network : Network) (items : List (Network × α)) : List α :=
  (items.filter fun item => item.1 = network).map Prod.snd

theorem forNetwork_cons {α : Type} (network : Network) (item : Network × α)
    (later : List (Network × α)) : forNetwork network (item :: later) =
      if item.1 = network then item.2 :: forNetwork network later else forNetwork network later := by
  by_cases same : item.1 = network <;> simp [forNetwork, same]

def OwnedBy (path : String) (networks : List Network) (place : Path) : Prop :=
  ∃ network ∈ networks, Owned (settingsOf path network).home place

def OnWayTo (path : String) (networks : List Network) (place : Path) : Prop :=
  ∃ network ∈ networks, OnTheWay (settingsOf path network).directory place

section Requests

variable {path : String} {network : Network}

namespace Session

def Placed (path : String) (network : Network) (session : Session) : Prop :=
  ∀ cache, session.cache = some cache → cache.handles = handlesAt (settingsOf path network)

structure Stays (path : String) (network : Network) (before after : Session) : Prop where
  placed : after.Placed path network
  framed : Framed (Owned (settingsOf path network).home)
    (fun place => OnTheWay (settingsOf path network).directory place ∧ before.tree.find? place = none)
    before.tree after.tree

variable {session : Session}

theorem perform_eq {α : Type} {cache : Cache} (placed : session.Placed path network)
    (held : session.cache = some cache) (medium : Medium) (told : Except Error α → Answer)
    (operation : HeldChain → Script (Outcome α)) :
    let handles := handlesAt (settingsOf path network)
    let ended := (operation cache.chain).run medium (handles.files session.tree)
    session.perform medium told operation =
      (⟨(handles.store session.tree ended.2).1, some ⟨cache.settings, ended.1.chain, handles⟩⟩,
        ⟨told ended.1.answer, ended.1.warnings, none⟩) := by
  simp only [perform, Session.run_eq held (placed cache held)]

theorem perform_stays {α : Type} (placed : session.Placed path network) (medium : Medium)
    (told : Except Error α → Answer) (operation : HeldChain → Script (Outcome α)) :
    Stays path network session (session.perform medium told operation).1 := by
  cases held : session.cache with
  | none =>
    simp only [perform, run, held, Option.map_none]
    exact ⟨placed, Framed.refl _⟩
  | some cache =>
    rw [perform_eq placed held]
    refine ⟨?_, (Cache.store_spares _ _ _).framed⟩
    rintro _ ⟨⟩
    rfl

theorem perform_alike {α : Type} {alone among : Session} (placed : alone.Placed path network)
    (same : among.cache = alone.cache)
    (files : (handlesAt (settingsOf path network)).files alone.tree =
      (handlesAt (settingsOf path network)).files among.tree)
    (medium : Medium) (told : Except Error α → Answer) (operation : HeldChain → Script (Outcome α)) :
    let one := alone.perform medium told operation
    let two := among.perform medium told operation
    one.2 = two.2 ∧ two.1.cache = one.1.cache ∧
      ((one.1 = alone ∧ two.1 = among) ∨ ∃ files,
        one.1.tree = ((handlesAt (settingsOf path network)).store alone.tree files).1 ∧
          two.1.tree = ((handlesAt (settingsOf path network)).store among.tree files).1) := by
  cases held : alone.cache with
  | none =>
    have none := same.trans held
    simp only [perform, run, held, none, Option.map_none]
    exact ⟨trivial, trivial, .inl ⟨trivial, trivial⟩⟩
  | some cache =>
    have there := same.trans held
    have placedToo : among.Placed path network := fun cache held => placed cache (same.symm.trans held)
    rw [perform_eq placed held, perform_eq placedToo there, files]
    exact ⟨rfl, rfl, .inr ⟨_, rfl, rfl⟩⟩

theorem respond_stays (placed : session.Placed path network) (request : Request) :
    Stays path network session (session.respond path network request).1 := by
  cases request with
  | opening startHeight syncFrom capacity medium =>
    refine ⟨fun cache held => ?_,
      Cache.openIn_framed medium session.tree ⟨network, startHeight, syncFrom, capacity, path⟩⟩
    simp only [respond] at held
    cases answer : (Cache.openIn medium session.tree
        ⟨network, startHeight, syncFrom, capacity, path⟩).answer with
    | error error =>
      rw [answer] at held
      contradiction
    | ok opened =>
      rw [answer] at held
      obtain rfl := Option.some.inj held
      have handles := Cache.handles_of_openIn answer
      exact handles
  | add height block medium => exact perform_stays placed medium _ _
  | addRaw data txids treeSize medium => exact perform_stays placed medium _ _
  | reorg height medium => exact perform_stays placed medium _ _
  | ask question => exact ⟨placed, Framed.refl _⟩
  | flush => exact ⟨placed, Framed.refl _⟩
  | close => exact ⟨fun cache held => by contradiction, Framed.refl _⟩

structure Paired (path : String) (network : Network) (related : Tree → Tree → Prop)
    (alone among : Session) : Prop where
  trees : related alone.tree among.tree
  cache : among.cache = alone.cache
  placed : alone.Placed path network

/-- Sessions on related trees do the same at every request, and leave related trees. -/
structure Lockstep (path : String) (network : Network) (related : Tree → Tree → Prop)
    (same : Response → Response → Prop) : Prop where
  refl : ∀ response, same response response
  files : ∀ {one two : Tree}, related one two → (handlesAt (settingsOf path network)).files one =
    (handlesAt (settingsOf path network)).files two
  stored : ∀ {one two : Tree}, related one two → ∀ files,
    related ((handlesAt (settingsOf path network)).store one files).1
      ((handlesAt (settingsOf path network)).store two files).1
  opened : ∀ {alone among : Session}, related alone.tree among.tree →
    ∀ startHeight syncFrom capacity medium,
      let one := alone.respond path network (.opening startHeight syncFrom capacity medium)
      let two := among.respond path network (.opening startHeight syncFrom capacity medium)
      same one.2 two.2 ∧ related one.1.tree two.1.tree ∧ two.1.cache = one.1.cache

section Lockstep

variable {related : Tree → Tree → Prop} {same : Response → Response → Prop} {alone among : Session}
  (lockstep : Lockstep path network related same) (paired : Paired path network related alone among)

include lockstep paired

theorem Lockstep.perform {α : Type} (medium : Medium) (told : Except Error α → Answer)
    (operation : HeldChain → Script (Outcome α)) :
    let one := alone.perform medium told operation
    let two := among.perform medium told operation
    same one.2 two.2 ∧ Paired path network related one.1 two.1 := by
  intro one two
  have placed := (perform_stays paired.placed medium told operation).placed
  obtain ⟨answered, cache, ⟨first, second⟩ | ⟨files, first, second⟩⟩ :=
    perform_alike paired.placed paired.cache (lockstep.files paired.trees) medium told operation
  · refine ⟨answered ▸ lockstep.refl _, ?_, cache, placed⟩
    rw [first, second]
    exact paired.trees
  · refine ⟨answered ▸ lockstep.refl _, ?_, cache, placed⟩
    rw [first, second]
    exact lockstep.stored paired.trees files

theorem Lockstep.respond (request : Request) :
    let one := alone.respond path network request
    let two := among.respond path network request
    same one.2 two.2 ∧ Paired path network related one.1 two.1 := by
  have placed := (respond_stays paired.placed request).placed
  cases request with
  | opening startHeight syncFrom capacity medium =>
    obtain ⟨answered, trees, cache⟩ := lockstep.opened paired.trees startHeight syncFrom capacity medium
    exact ⟨answered, trees, cache, placed⟩
  | add height block medium => exact lockstep.perform paired medium _ _
  | addRaw data txids treeSize medium => exact lockstep.perform paired medium _ _
  | reorg height medium => exact lockstep.perform paired medium _ _
  | ask question =>
    simp only [Session.respond, paired.cache]
    exact ⟨lockstep.refl _, paired⟩
  | flush =>
    simp only [Session.respond, paired.cache]
    exact ⟨lockstep.refl _, paired⟩
  | close =>
    simp only [Session.respond, paired.cache]
    exact ⟨lockstep.refl _, paired.trees, rfl, placed⟩

end Lockstep

end Session

end Requests

namespace Shared

open Session (Lockstep Paired)

variable {path : String} {shared : Shared}

def Placed (path : String) (shared : Shared) : Prop :=
  ∀ network, (shared.session network).Placed path network

theorem start_placed (path : String) (tree : Tree) : (start tree).Placed path :=
  fun _ _ held => by contradiction

section Step

variable {network other : Network} {request : Request}

theorem respond_self :
    (shared.respond path network request).1.session network =
      ((shared.session network).respond path network request).1 := by
  simp [respond, session]

theorem respond_other (differ : other ≠ network) :
    (shared.respond path network request).1.session other =
      ⟨((shared.session network).respond path network request).1.tree, shared.caches other⟩ := by
  simp [respond, session, differ]

theorem respond_placed (placed : shared.Placed path) (network : Network) (request : Request) :
    (shared.respond path network request).1.Placed path := by
  intro other
  by_cases same : other = network
  · rw [same, respond_self]
    exact (Session.respond_stays (placed network) request).placed
  · rw [respond_other same]
    exact placed other

theorem respond_framed (placed : shared.Placed path) (network : Network) (request : Request) :
    Framed (Owned (settingsOf path network).home)
      (fun place => OnTheWay (settingsOf path network).directory place ∧ shared.tree.find? place = none)
      shared.tree (shared.respond path network request).1.tree :=
  (Session.respond_stays (placed network) request).framed

end Step

section Run

variable (placed : shared.Placed path) (requests : List (Network × Request))

include placed

theorem responses_framed :
    Framed (OwnedBy path (requests.map Prod.fst)) (OnWayTo path (requests.map Prod.fst)) shared.tree
      (shared.responses path requests).1.tree := by
  induction requests generalizing shared with
  | nil => exact Framed.refl _
  | cons item later ih =>
    obtain ⟨network, request⟩ := item
    have first := respond_framed placed network request
    have rest := ih (respond_placed placed network request)
    refine (first.mono ?_ ?_).trans (rest.mono ?_ ?_)
    · exact fun place owned => ⟨network, List.mem_cons_self, owned⟩
    · exact fun place on => ⟨network, List.mem_cons_self, on.1⟩
    · exact fun place ⟨other, among, owned⟩ => ⟨other, List.mem_cons_of_mem _ among, owned⟩
    · exact fun place ⟨other, among, on⟩ => ⟨other, List.mem_cons_of_mem _ among, on⟩

theorem responses_related {related : Tree → Tree → Prop} {same : Response → Response → Prop}
    {networks : List Network} {network : Network} {alone : Session}
    (listed : ∀ item ∈ requests, item.1 ∈ networks)
    (own : network ∈ networks → Lockstep path network related same)
    (others : ∀ other ∈ networks, other ≠ network → ∀ {one two changed : Tree}, related one two →
      Framed (Owned (settingsOf path other).home)
        (fun place => OnTheWay (settingsOf path other).directory place ∧ two.find? place = none)
        two changed → related one changed)
    (paired : Paired path network related alone (shared.session network)) :
    let left := alone.responses path network (forNetwork network requests)
    let ended := shared.responses path requests
    List.Forall₂ same left.2 (forNetwork network ended.2) ∧
      Paired path network related left.1 (ended.1.session network) := by
  induction requests generalizing shared alone with
  | nil => exact ⟨.nil, paired⟩
  | cons item later ih =>
    obtain ⟨other, request⟩ := item
    have here := listed (other, request) List.mem_cons_self
    have remaining := fun item member => listed item (List.mem_cons_of_mem _ member)
    have ready := respond_placed placed other request
    by_cases asked : other = network
    next =>
      subst asked
      obtain ⟨answered, next⟩ := (own here).respond paired request
      rw [← respond_self] at next
      obtain ⟨rest, last⟩ := ih ready remaining next
      simp only [forNetwork_cons, if_true, Session.responses, responses]
      exact ⟨.cons answered rest, last⟩
    next =>
      have framed := respond_framed placed other request
      have next : Paired path network related alone
          ((shared.respond path other request).1.session network) := by
        rw [respond_other (Ne.symm asked)]
        exact ⟨others other here asked paired.trees framed, paired.cache, paired.placed⟩
      simp only [forNetwork_cons, if_neg asked, responses]
      exact ih ready remaining next

end Run

end Shared

end CompactChain

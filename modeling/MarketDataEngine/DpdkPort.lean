import MarketDataEngine.Dpdk
import Mathlib.Data.List.Nodup

/-!
# A port in memory

A library with one port and one pool at a time, whose mbufs are numbered: each is free, queued or
lent. It keeps the laws of a receiving port.
-/

namespace MarketDataEngine.EngineV3

set_option autoImplicit false

/-- `configure` fails `refusals` times, and a port that was closed is gone. -/
structure PortMemory where
  port : PortUse Nat
  gone : Bool
  pool : Option Nat
  nextPool : Nat
  free : List Nat
  queued : List Nat
  lent : List Nat
  memory : Nat → List UInt8
  refusals : Nat
  apart : (free ++ queued ++ lent).Nodup

namespace PortMemory

variable (library : PortMemory)

def createPool (size : Nat) : PortMemory × Option Nat :=
  if library.pool.isSome then (library, none)
  else
    ({ library with
        pool := some library.nextPool
        nextPool := library.nextPool + 1
        free := List.range size
        queued := []
        lent := []
        apart := by simpa using List.nodup_range }, some library.nextPool)

def freePool (pool : Nat) : PortMemory :=
  if library.pool = some pool then
    { library with pool := none, free := [], queued := [], lent := [], apart := List.nodup_nil }
  else library

def configure : PortMemory × Int :=
  if library.port.isStarted || library.gone then (library, -19)
  else
    match library.refusals with
    | 0 => ({ library with port := .configured }, 0)
    | more + 1 => ({ library with refusals := more }, -22)

def setupQueue (pool : Nat) : PortMemory × Int :=
  match library.port with
  | .configured => ({ library with port := .ready pool }, 0)
  | _ => (library, -22)

/-- The queue with all its mbufs empty. -/
def emptied : PortMemory :=
  { library with
    free := library.free ++ library.queued
    queued := []
    apart := by simpa using library.apart }

def start : PortMemory × Int :=
  match library.port with
  | .ready pool => ({ library.emptied with port := .started pool }, 0)
  | _ => (library, -22)

def stop : PortMemory × Int :=
  match library.port with
  | .started pool => ({ library with port := .ready pool }, 0)
  | _ => (library, -22)

def close : PortMemory × Int :=
  if library.port.isStarted then (library, -16)
  else ({ library.emptied with port := .idle, gone := true }, 0)

def rxBurst (count : Nat) : PortMemory × List Nat :=
  if library.port.isStarted then
    ({ library with
        queued := library.queued.drop count
        lent := library.lent ++ library.queued.take count
        apart := by
          refine (List.Perm.nodup_iff ?_).mpr library.apart
          rw [List.append_assoc, List.append_assoc]
          refine List.Perm.append_left _ ?_
          conv_rhs => rw [← List.take_append_drop count library.queued, List.append_assoc]
          rw [← List.append_assoc]
          exact List.perm_append_comm },
      library.queued.take count)
  else (library, [])

def freeMbuf (mbuf : Nat) : PortMemory :=
  if within : mbuf ∈ library.lent then
    { library with
      free := mbuf :: library.free
      lent := library.lent.erase mbuf
      apart := by
        refine (List.Perm.nodup_iff ?_).mpr library.apart
        exact List.perm_middle.symm.trans
          (List.Perm.append_left _ (List.perm_cons_erase within).symm) }
  else library

/-- A frame is taken if it fits into an mbuf and one is free. -/
def arrive (frame : List UInt8) : PortMemory × Bool :=
  match free : library.free with
  | [] => (library, false)
  | mbuf :: rest =>
      if library.port.isStarted && decide (frame.length ≤ 2048) then
        ({ library with
            free := rest
            queued := library.queued ++ [mbuf]
            memory := Function.update library.memory mbuf frame
            apart := by
              refine (List.Perm.nodup_iff ?_).mpr library.apart
              have moved : rest ++ (library.queued ++ [mbuf]) ++ library.lent =
                  (rest ++ library.queued) ++ mbuf :: library.lent := by simp
              rw [free, moved]
              exact List.perm_middle }, true)
      else (library, false)

end PortMemory

def portInMemory : Dpdk where
  State := PortMemory
  Pool := Nat
  Mbuf := Nat
  defaultBufSize := 2176
  rteEalInit library := (library, 0)
  rteEthDevCountAvail _ := 1
  rteEthDevSocketId _ _ := 0
  rtePktmbufPoolCreate request library := library.createPool request.size.toNat
  rteMempoolFree pool library := library.freePool pool
  rteEthDevConfigure _ _ _ library := library.configure
  rteEthRxQueueSetup _ _ _ _ pool library := library.setupQueue pool
  rteEthDevStart _ library := library.start
  rteEthPromiscuousEnable _ library := (library, 0)
  rteEthDevStop _ library := library.stop
  rteEthDevClose _ library := library.close
  rteEthRxBurst _ _ count library := library.rxBurst count.toNat
  rtePktmbufFree mbuf library := library.freeMbuf mbuf
  data library := library.memory
  arrive _ _ frame library := library.arrive frame

theorem port_bursts_bounded : BurstsBounded portInMemory := by
  intro portId queueId count library
  show (PortMemory.rxBurst library count.toNat).2.length ≤ count.toNat
  unfold PortMemory.rxBurst
  split_ifs
  · exact List.length_take_le _ _
  · exact Nat.zero_le _

section Laws

variable (library : PortMemory)

/-- What waits is what the queued mbufs hold. -/
def PortMemory.waiting : List (List UInt8) := library.queued.map library.memory

end Laws

/-- A port that nobody has configured. -/
def newPort (refusals : Nat) : PortMemory where
  port := .idle
  gone := false
  pool := none
  nextPool := 0
  free := []
  queued := []
  lent := []
  memory := fun _ => []
  refusals := refusals
  apart := List.nodup_nil

end MarketDataEngine.EngineV3

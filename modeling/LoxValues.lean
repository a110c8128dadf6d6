import LoxValues.World.Step
import LoxValues.Writing
import LoxValues.Proofs.Bisimulation
import LoxValues.Proofs.Comparison
import LoxValues.Proofs.Nesting
import LoxValues.Proofs.Equality
import LoxValues.Proofs.Configuring
import LoxValues.Proofs.Profile
import LoxValues.Proofs.Equivalence
import LoxValues.Proofs.Failure
import LoxValues.Proofs.Observation
import LoxValues.Proofs.Numeral
import LoxValues.Proofs.TwiceRounded
import LoxValues.Proofs.ShortestText
import LoxValues.Proofs.RenderingEnds
import LoxValues.Proofs.Layers
import LoxValues.Proofs.Copying
import LoxValues.Proofs.Likeness
import LoxValues.Proofs.SuperclassWalk
import LoxValues.Proofs.Identity
import LoxValues.Proofs.Footprint
import LoxValues.Proofs.Caching
import LoxValues.Proofs.Silence
import LoxValues.Proofs.Payload
import LoxValues.Proofs.IntegerRoundTrip
import LoxValues.Proofs.Unlimited
import LoxValues.Proofs.PlainRendering
import LoxValues.Proofs.MethodLookup
import LoxValues.Proofs.Refusal
import LoxValues.Proofs.Overriding
import LoxValues.Proofs.Negation
import LoxValues.Proofs.LiteralText
import LoxValues.Proofs.JoinedFilters
import LoxValues.Proofs.WrittenFilters
import LoxValues.Proofs.Positions
import LoxValues.Proofs.Sameness
import LoxValues.Proofs.SharedElements
import LoxValues.Proofs.Truthiness
import LoxValues.Proofs.Assumptions
import LoxValues.Proofs.Moments

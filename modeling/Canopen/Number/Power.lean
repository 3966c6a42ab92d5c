/-!
# Powers

A power of whole numbers with a natural exponent is the one of the core library, whatever other
powers are in sight.
-/

attribute [instance (2000), default_instance (10001)] instPowNat

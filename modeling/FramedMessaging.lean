import FramedMessaging.Proofs.Channel.MarkerReads
import FramedMessaging.Proofs.Channel.Suspension
import FramedMessaging.Proofs.Config.BuiltFraming
import FramedMessaging.Proofs.Config.DeclaredConfig
import FramedMessaging.Proofs.Connection.EndOfStream
import FramedMessaging.Proofs.Connection.SendOrder
import FramedMessaging.Proofs.Discovery.Bootstrap
import FramedMessaging.Proofs.Extension.Installation
import FramedMessaging.Proofs.Extension.Validation
import FramedMessaging.Proofs.Framing.Advance
import FramedMessaging.Proofs.Framing.TextLines
import FramedMessaging.Proofs.MessagePack.TypedForm
import FramedMessaging.Proofs.Worker.Bound
import FramedMessaging.Proofs.Worker.Echo
import FramedMessaging.Proofs.Worker.Ending
import FramedMessaging.Proofs.Worker.Fold
import FramedMessaging.Proofs.Worker.Release

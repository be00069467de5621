import JrtController.PackedBitsProofs
import JrtController.StreamIdProofs
import JrtController.RouterLookupProofs
import JrtController.RunProofs
import JrtController.ReqTableProofs
import JrtController.AppQueueProofs
import JrtController.RouterProofs
import JrtController.ForwardMsgsProofs
import JrtController.SubscriptionProofs
import JrtController.BufferRefProofs
import JrtController.AppRegistryProofs
import JrtController.KeyRefTableProofs
import JrtController.ChannelTableProofs
import JrtController.WrapperAppProofs
import JrtController.ControllerProofs
import JrtController.EnvOwnershipProofs
import JrtController.AppLifecycleProofs
import JrtController.AppContextProofs
import JrtController.IterMapProofs
import JrtController.LoadRequestProofs
import JrtController.RestServerProofs
import JrtController.AppIdentityProofs
import JrtController.DispatchProofs
import JrtController.CodeletSetProofs
import JrtController.SchemaDecoderProofs
import JrtController.EnvExpansionProofs
import JrtController.ConfigProofs
import JrtController.DeleteProofs
import JrtController.AppTableProofs
import JrtController.AppTableRefinementProofs
import JrtController.StopProofs
import JrtController.DecoderServerProofs
import JrtController.RingBufferProofs
import JrtController.AppRingProofs
import JrtController.DeploymentProofs
import JrtController.DeploymentRunProofs
import JrtController.CodeletCheckProofs
import JrtController.StreamHashProofs
import JrtController.GoBindingProofs
import JrtController.WrapperCleanUpProofs
import JrtController.ReceiveProofs
import JrtController.LedgerProofs
import JrtController.NorthIoProofs
import JrtController.CacheStoreProofs
import JrtController.DecoderStoreProofs
import JrtController.BitFieldProofs
import JrtController.FieldMatchProofs
import JrtController.CStringProofs
import JrtController.ReclaimProofs
import JrtController.RequestReclaimProofs
import JrtController.RequestRefinementProofs
import JrtController.DeliveryProofs
import JrtController.ChannelProofs
import JrtController.DecoderRunProofs
import JrtController.DataPathProofs
import JrtController.RwLockProofs
import JrtController.StoreLockProofs
import JrtController.DecoderHandlersProofs
import JrtController.VarNameProofs
import JrtController.DeviceMappingProofs
import JrtController.SplitConfigProofs
import JrtController.ConfigExpansionProofs
import JrtController.SliceHeapProofs
import JrtController.UploaderProofs
import JrtController.ForkJoinProofs
